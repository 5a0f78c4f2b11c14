import Retune.Host

/-!
# The register aperture

Register accesses with their notices, and waits for a register to take a
value.
-/

namespace Retune.Host

variable {σ : Type} (h : Host σ)

def read (addr : UInt32) : StateM σ UInt32 := do
  let value ← h.load addr
  h.report (ApertureNotice.registerRead addr value)
  return value

def write (addr value : UInt32) : StateM σ Unit := do
  h.report (ApertureNotice.registerWrite addr value)
  h.store addr value

def reviseBits (addr clear set : UInt32) : StateM σ UInt32 := do
  let old ← h.read addr
  h.write addr ((old &&& ~~~clear) ||| set)
  return old

/-- Samples a register until its masked bits are `value`, at most `more` times
after the first. Answers the matching word, or the last one as an error. -/
def poll (addr mask value : UInt32) : (more : Nat) → StateM σ (Except UInt32 UInt32)
  | 0 => do
    let word ← h.read addr
    if word &&& mask == value then return .ok word
    h.report (ApertureNotice.waitExpired addr mask value word)
    return .error word
  | more + 1 => do
    let word ← h.read addr
    if word &&& mask == value then return .ok word
    poll addr mask value more

/-- Waits until the masked bits of a register are `value`. A microsecond is
one more sample, and the register is sampled at least once. -/
def awaitBits (addr mask value : UInt32) (timeoutUs : Nat) : StateM σ (Except UInt32 UInt32) :=
  h.poll addr mask value timeoutUs

def awaitClear (addr mask : UInt32) (timeoutUs : Nat) : StateM σ (Except UInt32 UInt32) :=
  h.awaitBits addr mask 0 timeoutUs

end Retune.Host
