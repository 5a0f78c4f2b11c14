/-!
# Mapped register memory

A mapping is a run of bytes that is accessed word by word until it is closed.
An access outside of it, not on a word boundary, or after closing reads zero
and writes nothing.
-/

namespace Retune

/-- The bytes of a mapping, and whether it is still open. -/
structure Mapping where
  bytes : Array UInt8
  live : Bool
  deriving DecidableEq, Repr

def wordOfBytes (b0 b1 b2 b3 : UInt8) : UInt32 :=
  b0.toUInt32 ||| b1.toUInt32 <<< 8 ||| b2.toUInt32 <<< 16 ||| b3.toUInt32 <<< 24

def byteOfWord (w : UInt32) (i : UInt32) : UInt8 := (w >>> (8 * i)).toUInt8

namespace Mapping

def zeroed (length : Nat) : Mapping := ⟨Array.replicate length 0, true⟩

def reaches (m : Mapping) (offset : UInt32) : Bool :=
  m.live && offset.toNat % 4 == 0 && offset.toNat + 4 ≤ m.bytes.size

/-- The word at a byte position; bytes past the end are zero. -/
def wordAt (m : Mapping) (i : Nat) : UInt32 :=
  wordOfBytes (m.bytes.getD i 0) (m.bytes.getD (i + 1) 0) (m.bytes.getD (i + 2) 0)
    (m.bytes.getD (i + 3) 0)

/-- Stores a word at a byte position; what lies past the end is dropped. -/
def setWordAt (m : Mapping) (i : Nat) (w : UInt32) : Mapping :=
  { m with
    bytes := (((m.bytes.setIfInBounds i (byteOfWord w 0)).setIfInBounds (i + 1)
      (byteOfWord w 1)).setIfInBounds (i + 2) (byteOfWord w 2)).setIfInBounds (i + 3)
      (byteOfWord w 3) }

def load (m : Mapping) (offset : UInt32) : UInt32 :=
  if m.reaches offset then m.wordAt offset.toNat else 0

def store (m : Mapping) (offset value : UInt32) : Mapping :=
  if m.reaches offset then m.setWordAt offset.toNat value else m

def close (m : Mapping) : Mapping := { m with live := false }

theorem load_of_not_reaches {m : Mapping} {offset : UInt32} (h : m.reaches offset = false) :
    m.load offset = 0 := by simp [load, h]

theorem store_of_not_reaches {m : Mapping} {offset : UInt32} (h : m.reaches offset = false)
    (value : UInt32) : m.store offset value = m := by simp [store, h]

@[simp] theorem reaches_close (m : Mapping) (offset : UInt32) :
    m.close.reaches offset = false := by simp [reaches, close]

def words (m : Mapping) : List UInt32 :=
  (List.range (m.bytes.size / 4)).map fun i => m.wordAt (4 * i)

def preset (length : Nat) (words : List UInt32) : Mapping :=
  words.zipIdx.foldl (fun m (w, i) => m.setWordAt (4 * i) w) (zeroed length)

end Mapping

end Retune
