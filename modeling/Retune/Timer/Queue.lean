/-!
# Pending timers

Timers in the order in which they go off: by deadline, and those with one
deadline in the order they were armed. Ids are handed out once.
-/

namespace Retune

structure PendingTimer (π : Type) where
  deadline : Nat
  id : Nat
  payload : π

def PendingTimer.before {π : Type} (a b : PendingTimer π) : Bool :=
  a.deadline < b.deadline || (a.deadline == b.deadline && a.id < b.id)

/-- The timers of a scheduler, the first to go off in front. -/
structure TimerQueue (π : Type) where
  pending : List (PendingTimer π)
  nextId : Nat

namespace TimerQueue
variable {π : Type}

def startingAt (id : Nat) : TimerQueue π := ⟨[], id⟩

def insert (t : PendingTimer π) : List (PendingTimer π) → List (PendingTimer π)
  | [] => [t]
  | u :: us => if t.before u then t :: u :: us else u :: insert t us

theorem mem_insert {t u : PendingTimer π} {us : List (PendingTimer π)} :
    u ∈ insert t us ↔ u = t ∨ u ∈ us := by
  induction us with
  | nil => simp [insert]
  | cons v us ih =>
    simp only [insert]
    split <;> simp [ih, or_left_comm]

@[simp] theorem length_insert (t : PendingTimer π) (us : List (PendingTimer π)) :
    (insert t us).length = us.length + 1 := by
  induction us with
  | nil => rfl
  | cons v us ih =>
    simp only [insert]
    split <;> simp [ih]

def arm (q : TimerQueue π) (deadline : Nat) (payload : π) : Nat × TimerQueue π :=
  (q.nextId, ⟨insert ⟨deadline, q.nextId, payload⟩ q.pending, q.nextId + 1⟩)

def isPending (q : TimerQueue π) (id : Nat) : Bool := q.pending.any fun t => t.id == id

def cancel (q : TimerQueue π) (id : Nat) : Bool × TimerQueue π :=
  (q.isPending id, { q with pending := q.pending.filter fun t => t.id != id })

/-- Takes the first timer if its deadline has come. -/
def popDue? (q : TimerQueue π) (now : Nat) : Option (PendingTimer π × TimerQueue π) :=
  match q.pending with
  | [] => none
  | t :: rest => if t.deadline ≤ now then some (t, { q with pending := rest }) else none

def nextDeadline? (q : TimerQueue π) : Option Nat := q.pending.head?.map (·.deadline)

def size (q : TimerQueue π) : Nat := q.pending.length

end TimerQueue

end Retune
