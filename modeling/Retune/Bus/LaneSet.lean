/-!
# Lanes of a port

A port has two lanes. A set of them is a byte, of which the two low bits select
lanes to write.
-/

namespace Retune

/-- Bit `n` selects lane `n`. Higher bits are kept. -/
structure LaneSet where
  bits : UInt8
  deriving DecidableEq, Repr

namespace LaneSet

def lane0 : LaneSet := ⟨1⟩

def both : LaneSet := ⟨3⟩

def toList (m : LaneSet) : List UInt8 :=
  [0, 1].filter fun lane => m.bits &&& (1 <<< lane) != 0

/-- The lane a single read goes to: the highest bit of the set, lane 0 for
the empty set. -/
def highest (m : LaneSet) : UInt8 := m.bits.toNat.log2.toUInt8

end LaneSet

end Retune
