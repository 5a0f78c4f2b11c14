import Retune.Adjustment.Request
import Retune.Adjustment.Rollback

/-!
# Adjusting a device

An adjustment captures the device, walks it to the target, and arms the timer
of its rollback. While it is armed the clock can be moved on; what was
captured stays the version to restore.
-/

namespace Retune.Controller

variable {δ σ : Type} (st : Station σ) (dev : Adjustable δ σ)

/-! ## One adjustment -/

def fail {α : Type} (n : AdjustmentNotice) (e : Failure) : Holding (Controller δ) σ α := do
  st.report n
  modify (update .finish)
  throw e

def arm (delayMs : UInt64) : Holding (Controller δ) σ Unit := do
  modify (update .arm)
  let id ← st.armTimer delayMs (← get).progress.generation
  modify (update (.withTimer id))

def planTarget (a : Adjustment) : Holding (Controller δ) σ (Float × Float) := do
  let found := dev.clock (← get).device .found
  let target := a.target found
  modify (update (.planned found target a.stepShift a.waitMs))
  st.report (AdjustmentNotice.planned found target)
  return (found, target)

def captureTarget (a : Adjustment) : Holding (Controller δ) σ (Float × Float) := do
  match ← (capture dev).outcome with
  | .error e => fail st (.captureFailed e) e
  | .ok () =>
    modify (update (.enter .captured))
    planTarget st dev a

/-- Walks to the target and arms the rollback. A walk that was stopped
restores what was captured. -/
def moveTarget (a : Adjustment) (found target : Float) : Holding (Controller δ) σ Unit := do
  modify (update (.enter .stepping))
  match ← (walk st dev ⟨found, target, a.stepShift, a.waitMs, true⟩).outcome with
  | .error e => fail st (.walkFailed e) e
  | .ok .interrupted =>
    let restored ← (program dev .found).outcome
    modify (update .finish)
    MonadExcept.ofExcept restored
  | .ok .completed =>
    (dev.listing (← get).device).forM fun n => st.report n
    if a.autoReset then arm st a.rollbackDelay else modify (update .finish)

/-- Makes one adjustment. An earlier one that is still armed is rolled back
first. -/
def adjust (a : Adjustment) : Holding (Controller δ) σ Unit := do
  if !a.isFinite then
    st.report (AdjustmentNotice.invalidDrift a.driftMs a.shift a.fastShift)
    throw (.invalidArgument "non-finite drift or shift")
  st.report (AdjustmentNotice.rollbackDelay a.rollbackDelay a.thresholdUs)
  discard (rollbackArmed st dev none (some .restoringFirst))
  let (found, target) ← captureTarget st dev a
  if !a.commit || a.rollbackDelay == 0 then
    st.report AdjustmentNotice.notUpdated
    modify (update .finish)
  else moveTarget st dev a found target

/-! ## Moving and asking -/

/-- The clock in the hardware: the proposal while armed, else captured anew. -/
def clock : Holding (Controller δ) σ Float := do
  let c ← get
  if c.isArmed then return dev.clock c.device .proposed
  capture dev
  return dev.clock (← get).device .found

/-- Walks from `current` to `target`. While armed, a rollback then starts where
the walk ended. -/
def moveFrom (armed : Bool) (current target shift : Float) (waitMs : UInt64) :
    Holding (Controller δ) σ WalkEnd := do
  let ending ← walk st dev ⟨current, target, shift, waitMs, true⟩
  if armed then
    modify fun c => c.update (.withTarget (dev.clock c.device .proposed))
  return ending

def moveTo (target shift : Float) (waitMs : UInt64) : Holding (Controller δ) σ WalkEnd := do
  st.requireFrequency target "target PLL clock"
  st.requireShift shift
  let armed := (← get).isArmed
  let current ← clock dev
  moveFrom st dev armed current target shift waitMs

/-! ## Waiting -/

def await : (ms : Nat) → StateT (Controller δ) (StateM σ) Bool
  | 0 => do
    let c ← get
    if c.progress.done then return true
    st.stopRequested c.signal
  | ms + 1 => do
    let c ← get
    if c.progress.done then return true
    if ← st.stopRequested c.signal then return true
    (← st.elapse).forM (expire st dev)
    await ms

/-- Waits for the end of the adjustment. A requested stop rolls back at once.
Answers whether the adjustment is over. -/
def awaitEnd (ms : Nat) : StateT (Controller δ) (StateM σ) Bool := do
  if !(← await st dev ms) then return false
  if ← st.stopRequested (← get).signal then
    discard (cancel st dev)
  return (← get).progress.done

end Retune.Controller
