import Retune.Timer.Queue

/-!
# A timer worker

A worker owns a queue of timers and runs their payloads one after the other
when their deadlines come. Payloads may arm and cancel timers of the same
worker. A stopped worker runs nothing more.
-/

namespace Retune

inductive TimerAction (π : Type) where
  | arm (delayMs : Nat) (payload : π)
  | cancel (id : Nat)

class Runnable (π : Type) where
  actions : π → List (TimerAction π)

/-- A worker with its clock, in milliseconds. -/
structure TimerWorker (π : Type) where
  queue : TimerQueue π
  clock : Nat
  stopped : Bool

/-- A payload that has run: its timer, and what its cancels answered. -/
structure FiredTimer (π : Type) where
  timer : PendingTimer π
  cancelled : List Bool

namespace TimerWorker
variable {π : Type}

/-- A worker without timers. Its first id is one. -/
def fresh : TimerWorker π := ⟨.startingAt 1, 0, false⟩

def arm (w : TimerWorker π) (delayMs : Nat) (payload : π) : Nat × TimerWorker π :=
  let (id, queue) := w.queue.arm (w.clock + delayMs) payload
  (id, { w with queue })

def cancel (w : TimerWorker π) (id : Nat) : Bool × TimerWorker π :=
  let (found, queue) := w.queue.cancel id
  (found, { w with queue })

def advance (w : TimerWorker π) (ms : Nat) : TimerWorker π := { w with clock := w.clock + ms }

def advanceTo (w : TimerWorker π) (time : Nat) : TimerWorker π :=
  { w with clock := max w.clock time }

/-- No payload runs any more. -/
def stop (w : TimerWorker π) : TimerWorker π := { w with stopped := true }

def popDue? (w : TimerWorker π) : Option (PendingTimer π × TimerWorker π) :=
  if w.stopped then none
  else (w.queue.popDue? w.clock).map fun (t, queue) => (t, { w with queue })

def perform (w : TimerWorker π) : List (TimerAction π) → List Bool × TimerWorker π
  | [] => ([], w)
  | .arm delayMs payload :: rest => (w.arm delayMs payload).2.perform rest
  | .cancel id :: rest =>
    let (found, w) := w.cancel id
    let (answers, w) := w.perform rest
    (found :: answers, w)

def step [Runnable π] (w : TimerWorker π) : Option (FiredTimer π) × TimerWorker π :=
  match w.popDue? with
  | none => (none, w)
  | some (t, w) =>
    let (answers, w) := w.perform (Runnable.actions t.payload)
    (some ⟨t, answers⟩, w)

end TimerWorker

end Retune
