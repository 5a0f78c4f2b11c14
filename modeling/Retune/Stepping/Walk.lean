import Retune.Host
import Retune.Slot
import Retune.Stepping.Plan

/-!
# Walking a clock to its target

Each round proposes dividers for the next clock and, if asked to, programs
them. The last round is exactly at the target. A walk stops when a stop
signal is seen at the start of a round, and fails at the first failure, which
leaves the last programmed clock in place.
-/

namespace Retune

/-- A device whose clock can be walked: dividers are proposed for a clock, and
either version of its settings is programmed. -/
structure Walkable (δ σ : Type) where
  retune : δ → Float → Fallible σ δ
  program : δ → Version → Fallible σ Unit

structure Move where
  current : Float
  target : Float
  shift : Float
  waitMs : UInt64
  commit : Bool

inductive WalkEnd where
  | completed
  | interrupted
  deriving DecidableEq, Repr

def WalkEnd.name : WalkEnd → String
  | completed => "Completed"
  | interrupted => "Interrupted"

namespace Move
variable {δ σ : Type} (env : Environment σ) (dev : Walkable δ σ) (signal : Signal) (m : Move)

def check : Fallible σ Unit := do
  env.requireFrequency m.current "current PLL clock"
  env.requireFrequency m.target "target PLL clock"
  env.requireShift m.shift

def plan : StepPlan Float := .ofMove m.current m.target m.shift

def round (i : Nat) (steps : UInt64) (clock : Float) : Holding δ σ Unit := do
  env.report (WalkNotice.step i steps clock)
  let d ← env.reportingFailure (fun e => WalkNotice.retuneFailed clock e)
    (dev.retune (← get) clock)
  set d
  if m.commit then
    env.reportingFailure (fun e => WalkNotice.programFailed i e) (dev.program d .proposed)

/-- The last `left` rounds of a plan, the clock being at `clock`. -/
def rounds (plan : StepPlan Float) : (left : Nat) → (clock : Float) → Holding δ σ WalkEnd
  | 0, _ => return .completed
  | left + 1, clock => do
    let i := plan.steps.toNat - left
    if ← env.stopRequested signal then
      env.report (WalkNotice.stopped i plan.steps)
      return .interrupted
    let next := if left = 0 then m.target else clock + plan.size
    m.round env dev i plan.steps next
    if left ≠ 0 then env.pause m.waitMs
    rounds plan left next

def walk : Holding δ σ WalkEnd := do
  m.check env
  let steps := m.plan.steps
  if 1 < steps then
    env.report (WalkNotice.large steps)
  env.report (WalkNotice.start m.current m.target steps m.waitMs)
  m.rounds env dev signal m.plan steps.toNat m.current

end Move

end Retune
