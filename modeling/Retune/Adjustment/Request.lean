import Retune.Stepping.Plan
import Retune.Tunables

/-!
# Adjustments

A measured drift and how to make up for it: the clock runs faster or slower
by one shift for as long as that takes.
-/

namespace Retune

/-- A drift with its tunables. A positive drift means that the reference is
ahead. -/
structure Adjustment where
  driftMs : Float
  shift : Float
  fastShift : Float
  thresholdUs : UInt64
  waitMs : UInt64
  autoReset : Bool
  commit : Bool

namespace Adjustment

def ofTunables (driftMs : Float) (t : Tunables) : Adjustment :=
  { driftMs
    shift := t.shift
    fastShift := t.fastShift
    thresholdUs := t.stepThresholdUs
    waitMs := t.waitBetweenStepsMs
    autoReset := t.flags.autoReset
    commit := t.flags.commit }

def isFinite (a : Adjustment) : Bool :=
  a.driftMs.isFinite && a.shift.isFinite && a.fastShift.isFinite

def stepShift (a : Adjustment) : Float := a.shift.abs

/-- The shift of the clock: the fast one from the threshold on, unless that is
zero. -/
def effectiveShift (a : Adjustment) : Float :=
  if a.fastShift.abs != 0.0 && decide (a.thresholdUs.toFloat ≤ a.driftMs.abs * 1000.0) then
    a.fastShift.abs
  else a.shift.abs

def rollbackDelay (a : Adjustment) : UInt64 := timeToSync a.driftMs a.effectiveShift

/-- The clock to move to. A reference that is ahead slows the clock down. -/
def target (a : Adjustment) (clock : Float) : Float :=
  let direction : Float := if 0.0 < a.driftMs then -1.0 else 1.0
  clock + a.effectiveShift * clock / 100.0 * direction

end Adjustment

end Retune
