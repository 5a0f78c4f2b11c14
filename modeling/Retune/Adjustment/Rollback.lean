import Retune.Adjustment.Progress
import Retune.Stepping.Walk

/-!
# Controllers and their rollback

A controller holds a device that it has moved away from its clock for a while.
As long as it is armed there is exactly one rollback to come: whoever takes it
first, the timer, a cancel or the next adjustment, walks the device back and
restores what was captured.
-/

namespace Retune

/-- An environment with one-shot timers, which carry the number of an
adjustment. -/
structure Station (σ : Type) extends Environment σ where
  armTimer : (delayMs : UInt64) → (generation : Nat) → StateM σ Nat
  cancelTimer : (id : Nat) → StateM σ Bool
  /-- A millisecond passes. Answers what the timers that went off carry. -/
  elapse : StateM σ (List Nat)

/-- A device that can be adjusted: its settings are captured first, and both
versions of them encode a clock. -/
structure Adjustable (δ σ : Type) extends Walkable δ σ where
  capture : Holding δ σ Unit
  /-- Whether the settings have been captured completely. -/
  captured : δ → Bool
  clock : δ → Version → Float
  listing : δ → List Notice

structure Controller (δ : Type) where
  device : δ
  progress : Progress
  signal : Signal

namespace Controller
variable {δ σ : Type}

def ofDevice (device : δ) (signal : Signal) : Controller δ := ⟨device, .initial, signal⟩

def update (f : Progress → Progress) (c : Controller δ) : Controller δ :=
  { c with progress := f c.progress }

def isArmed (c : Controller δ) : Bool := c.progress.isArmed

variable (st : Station σ) (dev : Adjustable δ σ)

/-! ## The device -/

def onDevice {α : Type} (x : Holding δ σ α) : Holding (Controller δ) σ α :=
  Holding.onPart (·.device) (fun device c => { c with device }) x

def capture : Holding (Controller δ) σ Unit := onDevice dev.capture

def program (v : Version) : Holding (Controller δ) σ Unit := do
  dev.program (← get).device v

def walk (m : Move) : Holding (Controller δ) σ WalkEnd := do
  let signal := (← get).signal
  onDevice (m.walk st.toEnvironment dev.toWalkable signal)

/-! ## Rollback -/

/-- Takes the rollback that is to come, if there is one and it is the wanted
one, and disarms its timer. -/
def takeRollback (generation? : Option Nat) : StateT (Controller δ) (StateM σ) Bool := do
  let c ← get
  if !c.isArmed || !generation?.all (· == c.progress.generation) then return false
  set (c.update .rollBack)
  if let some id := c.progress.timer then
    discard (st.cancelTimer id)
  return true

def stepBack : StateT (Controller δ) (StateM σ) Unit := do
  let p := (← get).progress
  let back : Move := ⟨p.targetClock, p.foundClock, p.shift, p.waitMs, true⟩
  match ← (walk st dev back).run with
  | .ok .completed => pure ()
  | .ok .interrupted => st.report AdjustmentNotice.rollbackInterrupted
  | .error e => st.report (AdjustmentNotice.stepBackFailed p.foundClock e)

def restoreFound : StateT (Controller δ) (StateM σ) Unit := do
  let p := (← get).progress
  if let .error e ← (program dev .found).run then
    st.report (AdjustmentNotice.restoreFailed e)
  st.report (AdjustmentNotice.restored p.foundClock)
  modify (update .finish)

/-- Walks back and restores what was captured. However the walk ended, the
captured version is programmed. -/
def rollback : StateT (Controller δ) (StateM σ) Unit := do
  stepBack st dev
  restoreFound st dev

def rollbackArmed (generation? : Option Nat) (reason? : Option AdjustmentNotice) :
    StateT (Controller δ) (StateM σ) Bool := do
  if !(← takeRollback st generation?) then return false
  if let some reason := reason? then
    st.report reason
  rollback st dev
  return true

def cancel : StateT (Controller δ) (StateM σ) Bool := rollbackArmed st dev none none

/-- A timer has gone off. Only that of the adjustment still armed rolls
anything back. -/
def expire (generation : Nat) : StateT (Controller δ) (StateM σ) Unit :=
  discard (rollbackArmed st dev (some generation) (some .timerExpired))

end Controller

end Retune
