import Retune.Field
import Retune.Scalar

/-!
# The clock of a DKL PLL

The clock is the reference clock times the pre-divider times the feedback
ratio, in MHz. DIV0 holds the pre-divider and the whole ratio, BIAS the
fraction.
-/

namespace Retune.DklClock

def preDivider : Field := ⟨8, 4⟩

def integer : Field := ⟨0, 8⟩

def fraction : Field := ⟨8, 22⟩

variable {α : Type} [Scalar α]

def refMhz : α := (38.4 : α)

/-- How many units of the fraction make one. -/
def fractionUnits : α := (4194304.0 : α)

def ofWords (div0 bias : UInt32) : α :=
  refMhz * Scalar.ofNat (preDivider.get div0).toNat *
    (Scalar.ofNat (integer.get div0).toNat +
      Scalar.ofNat (fraction.get bias).toNat / fractionUnits)

def ratioFor (target : α) (preDiv : UInt32) : UInt32 × UInt32 :=
  let ratio := target / (refMhz * Scalar.ofNat preDiv.toNat)
  let whole := Scalar.toField (Scalar.floor ratio) integer.top
  (whole,
    Scalar.toField (Scalar.round ((ratio - Scalar.ofNat whole.toNat) * fractionUnits))
      fraction.top)

end Retune.DklClock
