import Retune.Decimal.Fixed
import Retune.Decimal.Shortest
import Retune.Failure
import Retune.Notice.Level

/-!
# Notices about ownership, walks, adjustments and timers
-/

namespace Retune

open Text Decimal

inductive ClaimNotice where
  | full (key : PllKey)
  | inUse (key : PllKey)
  | claimed (key : PllKey)
  | released (key : PllKey)
  | noRoute (output : String)
  | routed (output : String) (key : PllKey)

namespace ClaimNotice

def level : ClaimNotice → Level
  | full .. | inUse .. | noRoute .. => .error
  | _ => .debug

def text : ClaimNotice → String
  | full key => s!"PLL registry full, cannot track {key.family.name} PLL {key.index}"
  | inUse key => s!"{key.family.name} PLL {key.index} is already in use"
  | claimed key => s!"Claimed {key.family.name} PLL {key.index}"
  | released key => s!"Released {key.family.name} PLL {key.index}"
  | noRoute output => s!"{output}: no PLL routed to this output"
  | routed output key => s!"{output}: {key.family.name} PLL {key.index}"

end ClaimNotice

inductive WalkNotice where
  | large (steps : UInt64)
  | start (current target : Float) (steps waitMs : UInt64)
  | stopped (i : Nat) (steps : UInt64)
  | step (i : Nat) (steps : UInt64) (clock : Float)
  | retuneFailed (clock : Float) (error : Failure)
  | programFailed (i : Nat) (error : Failure)

namespace WalkNotice

def level : WalkNotice → Level
  | large .. => .info
  | start .. | step .. => .debug
  | stopped .. => .warn
  | retuneFailed .. | programFailed .. => .error

def text : WalkNotice → String
  | large steps => s!"Large PLL clock change detected. Applying in {steps} steps."
  | start current target steps waitMs =>
    s!"Adjusting PLL clock {fixed 4 current} -> {fixed 4 target} in {steps} steps, " ++
      s!"{waitMs} ms apart"
  | stopped i steps => s!"Shutdown requested, stopping at step {i} of {steps}"
  | step i steps clock => s!"Step {i} of {steps}: {fixed 4 clock}"
  | retuneFailed clock error =>
    s!"Failed to calculate feedback dividers for {fixed 4 clock}: {error.message}"
  | programFailed i error => s!"Failed to program PLL at step {i}: {error.message}"

end WalkNotice

inductive AdjustmentNotice where
  | invalidDrift (drift shift fastShift : Float)
  | rollbackDelay (ms thresholdUs : UInt64)
  | restoringFirst
  | captureFailed (error : Failure)
  | planned (current target : Float)
  | notUpdated
  | walkFailed (error : Failure)
  | timerExpired
  | rollbackInterrupted
  | stepBackFailed (clock : Float) (error : Failure)
  | restoreFailed (error : Failure)
  | restored (clock : Float)

namespace AdjustmentNotice

def level : AdjustmentNotice → Level
  | invalidDrift .. | captureFailed .. | walkFailed .. | restoreFailed .. => .error
  | restoringFirst | notUpdated | stepBackFailed .. => .warn
  | planned .. | restored .. => .info
  | rollbackDelay .. | timerExpired | rollbackInterrupted => .debug

def text : AdjustmentNotice → String
  | invalidDrift drift shift fastShift =>
    s!"Invalid drift {shortest drift} or shift {shortest shift}/{shortest fastShift}"
  | rollbackDelay ms thresholdUs =>
    s!"Rollback after {ms} ms (step threshold {thresholdUs} us)"
  | restoringFirst => "Previous adjustment still armed, restoring it first"
  | captureFailed error => s!"Failed to read PLL registers: {error.message}"
  | planned current target => s!"PLL clock: {fixed 4 current} -> {fixed 4 target}"
  | notUpdated => "Registers not updated"
  | walkFailed error => s!"Failed to set PLL clock: {error.message}"
  | timerExpired => "Rollback timer expired"
  | rollbackInterrupted => "Rollback stepping interrupted"
  | stepBackFailed clock error => s!"Stepping back to {fixed 4 clock} failed: {error.message}"
  | restoreFailed error => s!"Failed to restore PLL registers: {error.message}"
  | restored clock => s!"PLL clock restored to {fixed 4 clock}"

end AdjustmentNotice

inductive TimerNotice where
  | armed (id : Nat) (delayMs : UInt64)
  | fired (id : Nat)
  | cancelled (id : Nat)

namespace TimerNotice

def level : TimerNotice → Level
  | _ => .debug

def text : TimerNotice → String
  | armed id delayMs => s!"Timer {id} armed for {delayMs} ms"
  | fired id => s!"Timer {id} fired"
  | cancelled id => s!"Timer {id} cancelled"

end TimerNotice

end Retune
