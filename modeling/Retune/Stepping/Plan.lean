import Retune.Scalar

/-!
# Step plans

A clock is moved in equal steps, none larger than the shift, which is a
percentage of the clock it starts from. How long a drift takes to be made up
for at a given shift is computed here too.
-/

namespace Retune

/-- How many steps, and how much the clock changes in each. -/
structure StepPlan (α : Type) where
  steps : UInt64
  size : α

variable {α : Type} [Scalar α]

namespace StepPlan

def direct (current target : α) : StepPlan α := ⟨1, target - current⟩

def percentChange (current target : α) : α :=
  Scalar.round (Scalar.abs (target - current) / current * (100.0 : α) * (10000.0 : α)) /
    (10000.0 : α)

/-- The plan for a move. A shift of zero sets no bound. -/
def ofMove (current target shift : α) : StepPlan α :=
  if shift == (0.0 : α) || decide (percentChange current target ≤ shift) then
    direct current target
  else
    let direction : α := if current < target then (1.0 : α) else -(1.0 : α)
    let step := current * shift / (100.0 : α) * direction
    let steps := Scalar.toWord64 (Scalar.ceil (Scalar.abs ((target - current) / step)))
    if 1 < steps then ⟨steps, (target - current) / Scalar.ofNat steps.toNat⟩
    else direct current target

end StepPlan

/-- How many milliseconds a drift takes to be made up for. A shift of zero
makes up for nothing. -/
def timeToSync (driftMs shift : α) : UInt64 :=
  if shift == (0.0 : α) then 0
  else Scalar.toWord64 (Scalar.floor (Scalar.abs driftMs * (100.0 : α) / shift))

end Retune
