/-!
# Bit fields

A field is a run of bits inside a register word.
-/

namespace Retune

/-- `width` bits from bit `low` on. -/
structure Field where
  low : UInt32
  width : UInt32
  deriving DecidableEq, Repr

namespace Field

def top (f : Field) : UInt32 := (1 <<< f.width) - 1

def mask (f : Field) : UInt32 := f.top <<< f.low

def get (f : Field) (word : UInt32) : UInt32 := (word >>> f.low) &&& f.top

/-- `word` with the field set to `v`, whose higher bits are dropped. -/
def set (f : Field) (word v : UInt32) : UInt32 :=
  (word &&& ~~~f.mask) ||| ((v &&& f.top) <<< f.low)

def isSet (f : Field) (word : UInt32) : Bool := f.get word != 0

end Field

end Retune
