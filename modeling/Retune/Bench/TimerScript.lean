import Retune.Timer.Worker

/-!
# Scripted timers

Payloads that report a tag and, while they run, cancel and arm other timers.
The owner of the worker may let go of it; payloads that hold on to it keep it
running until the last of them has run.
-/

namespace Retune

/-- A payload: its tag, the timers it cancels, those it arms after that, and
whether it holds on to the worker. -/
inductive TimerScript where
  | script (tag : String) (cancels : List Nat) (arms : List (UInt64 × TimerScript)) (holds : Bool)

namespace TimerScript

def tag : TimerScript → String
  | script tag .. => tag

def cancels : TimerScript → List Nat
  | script _ cancels .. => cancels

def arms : TimerScript → List (UInt64 × TimerScript)
  | script _ _ arms _ => arms

def holds : TimerScript → Bool
  | script _ _ _ holds => holds

instance : Runnable TimerScript where
  actions s := s.cancels.map .cancel ++ s.arms.map fun (ms, t) => .arm ms.toNat t

mutual

def size : TimerScript → Nat
  | script _ _ arms _ => sizes arms + 1

def sizes : List (UInt64 × TimerScript) → Nat
  | [] => 0
  | (_, t) :: rest => t.size + sizes rest

end

end TimerScript

structure TimerReport where
  tag : String
  cancelled : List Bool

/-- A worker, whether its owner still has it, and the reports nobody has
looked at. -/
structure TimerStage where
  worker : TimerWorker TimerScript
  owned : Bool
  reports : List TimerReport

inductive StageCommand where
  | arm (delayMs : UInt64) (script : TimerScript)
  | cancel (id : Nat)
  | pending
  | wait (count : Nat)
  | settle (ms : Nat)
  | drop

inductive StageAnswer where
  | nothing
  | id (n : Nat)
  | flag (b : Bool)
  | count (n : Nat)
  | reports (rs : List TimerReport)

namespace TimerStage

def fresh : TimerStage := ⟨.fresh, true, []⟩

def settleOwnership (s : TimerStage) : TimerStage :=
  if s.owned || s.worker.queue.pending.any (fun t => t.payload.holds) then s
  else { s with worker := s.worker.stop }

/-- The payload of a timer runs. Without an owner it only reports its tag. -/
def runTimer (s : TimerStage) (t : PendingTimer TimerScript) (w : TimerWorker TimerScript) :
    TimerStage :=
  let actions := if s.owned then Runnable.actions t.payload else []
  let (cancelled, worker) := w.perform actions
  let report : TimerReport := ⟨t.payload.tag, cancelled⟩
  { s with worker, reports := s.reports ++ [report] }.settleOwnership

def stepNext (s : TimerStage) : TimerStage :=
  match s.worker.queue.nextDeadline? with
  | none => s
  | some deadline =>
    let worker := s.worker.advanceTo deadline
    match worker.popDue? with
    | some (t, w) => s.runTimer t w
    | none => { s with worker }

/-- How many payloads can still run. -/
def payloadCount (s : TimerStage) : Nat :=
  s.worker.queue.pending.foldr (fun t n => t.payload.size + n) 0

/-- Runs timers until there are `count` reports; at most `turns` of them. -/
def runUntilReports (count : Nat) (s : TimerStage) : (turns : Nat) → TimerStage
  | 0 => s
  | turns + 1 =>
    if count ≤ s.reports.length then s else runUntilReports count s.stepNext turns

def firesBy (s : TimerStage) (time : Nat) : Bool :=
  !s.worker.stopped && s.worker.queue.nextDeadline?.any (· ≤ time)

def runUntilTime (time : Nat) (s : TimerStage) : (turns : Nat) → TimerStage
  | 0 => s
  | turns + 1 => if s.firesBy time then runUntilTime time s.stepNext turns else s

def takeReports (s : TimerStage) (count : Nat) : StageAnswer × TimerStage :=
  (.reports (s.reports.take count), { s with reports := s.reports.drop count })

def runOwned (s : TimerStage) : StageCommand → StageAnswer × TimerStage
  | .arm delayMs script =>
    let (id, worker) := s.worker.arm delayMs.toNat script
    (.id id, { s with worker })
  | .cancel id =>
    let (found, worker) := s.worker.cancel id
    (.flag found, { s with worker })
  | .pending => (.count s.worker.queue.size, s)
  | .wait count => (s.runUntilReports count s.payloadCount).takeReports count
  | .settle ms =>
    let time := s.worker.clock + ms
    let s := s.runUntilTime time s.payloadCount
    { s with worker := s.worker.advanceTo time }.takeReports s.reports.length
  | .drop => (.nothing, { s with owned := false }.settleOwnership)

def run (s : TimerStage) (c : StageCommand) : StageAnswer × TimerStage :=
  match c with
  | .wait _ | .settle _ | .drop => s.runOwned c
  | .arm .. | .cancel _ | .pending => if s.owned then s.runOwned c else (.nothing, s)

end TimerStage

end Retune
