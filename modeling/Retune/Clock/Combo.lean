import Retune.Field
import Retune.Scalar

/-!
# The clock of a Combo DPLL

CFGCR0 holds a whole and a fractional ratio to the reference clock. The clock
is taken before the output dividers, in kHz.
-/

namespace Retune.ComboClock

def integer : Field := ⟨0, 10⟩

/-- The fractional ratio in CFGCR0, in units of 1 / 32768 of two reference
clocks. -/
def fraction : Field := ⟨10, 15⟩

variable {α : Type} [Scalar α]

def refKhz : α := (19200.0 : α)

def ofWord (cfgcr0 : UInt32) : α :=
  Scalar.ofNat (integer.get cfgcr0).toNat * refKhz +
    Scalar.ofNat (fraction.get cfgcr0).toNat * (2.0 : α) * refKhz / (32768.0 : α)

def ratioFor (target : α) : UInt32 × UInt32 :=
  let whole := Scalar.toField (Scalar.floor (target / refKhz)) integer.top
  let rest := target - Scalar.ofNat whole.toNat * refKhz
  (whole,
    Scalar.toField (Scalar.round (rest * (32768.0 : α) / ((2.0 : α) * refKhz))) fraction.top)

def withRatio (cfgcr0 whole part : UInt32) : UInt32 :=
  fraction.set (integer.set cfgcr0 whole) part

end Retune.ComboClock
