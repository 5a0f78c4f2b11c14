/-!
# Progress of an adjustment

What a controller remembers of its last adjustment: where it stands, and what
the rollback needs.
-/

namespace Retune

inductive Phase where
  | idle
  | captured
  | targetComputed
  | stepping
  | armed
  | rollingBack
  | done
  deriving DecidableEq, Repr

def Phase.name : Phase → String
  | idle => "Idle"
  | captured => "Captured"
  | targetComputed => "TargetComputed"
  | stepping => "Stepping"
  | armed => "ArmedForRollback"
  | rollingBack => "RollingBack"
  | done => "Done"

/-- The progress of an adjustment. `generation` counts the timers armed so
far; the clocks, the shift and the wait are those of its walk. -/
structure Progress where
  phase : Phase
  done : Bool
  timer : Option Nat
  generation : Nat
  foundClock : Float
  targetClock : Float
  shift : Float
  waitMs : UInt64

namespace Progress

def initial : Progress := ⟨.idle, true, none, 0, 0.0, 0.0, 0.0, 0⟩

def isArmed (p : Progress) : Bool := p.phase = .armed

def enter (phase : Phase) (p : Progress) : Progress := { p with phase }

def planned (found target shift : Float) (waitMs : UInt64) (p : Progress) : Progress :=
  { p with
    foundClock := found, targetClock := target, shift, waitMs, phase := .targetComputed }

def arm (p : Progress) : Progress :=
  { p with generation := p.generation + 1, done := false, phase := .armed }

def withTimer (id : Nat) (p : Progress) : Progress := { p with timer := some id }

/-- The clock was moved on; a rollback starts from there. -/
def withTarget (clock : Float) (p : Progress) : Progress := { p with targetClock := clock }

def rollBack (p : Progress) : Progress := { p with phase := .rollingBack, timer := none }

def finish (p : Progress) : Progress := { p with phase := .done, done := true }

end Progress

end Retune
