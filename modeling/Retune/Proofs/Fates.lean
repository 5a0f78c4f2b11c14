import Mathlib.Data.List.Nodup
import Retune.Timer.Worker

/-!
# What becomes of a timer

A worker with its history written down. Whatever is armed, cancelled, run or let
go of, by the owner or by payloads while they run, every timer has one fate, and
one that is not pending any more keeps it.
-/

namespace Retune

variable {π : Type}

/-! ## Histories -/

inductive TimerEvent (π : Type) where
  | armed (id time delayMs : Nat)
  | fired (t : PendingTimer π) (time : Nat)
  | cancelled (id : Nat) (found : Bool)

namespace TimerEvent

def armed? : TimerEvent π → Option Nat
  | armed id .. => some id
  | _ => none

def fired? : TimerEvent π → Option Nat
  | fired t _ => some t.id
  | _ => none

def cancelled? : TimerEvent π → Option Nat
  | cancelled id true => some id
  | _ => none

end TimerEvent

def armedIds (events : List (TimerEvent π)) : List Nat := events.filterMap TimerEvent.armed?

def firedIds (events : List (TimerEvent π)) : List Nat := events.filterMap TimerEvent.fired?

def cancelledIds (events : List (TimerEvent π)) : List Nat := events.filterMap TimerEvent.cancelled?

def Awaits (events : List (TimerEvent π)) (id : Nat) : Prop :=
  id ∈ armedIds events ∧ id ∉ firedIds events ∧ id ∉ cancelledIds events

/-- What can happen to a worker. Once its owner lets go of it, nobody arms or
cancels any more. -/
inductive TimerOperation (π : Type) where
  | arm (delayMs : Nat) (payload : π)
  | cancel (id : Nat)
  | advance (ms : Nat)
  | turn
  | drop

def TimerOperation.leave [Runnable π] (w : TimerWorker π) : TimerOperation π → TimerWorker π
  | arm delayMs payload => if w.stopped then w else (w.arm delayMs payload).2
  | cancel id => if w.stopped then w else (w.cancel id).2
  | advance ms => w.advance ms
  | turn => w.step.2
  | drop => w.stop

/-- A worker with what has happened so far, the latest first. -/
structure TimerHistory (π : Type) where
  worker : TimerWorker π
  events : List (TimerEvent π)

namespace TimerHistory

def fresh : TimerHistory π := ⟨.fresh, []⟩

def arm (h : TimerHistory π) (delayMs : Nat) (payload : π) : TimerHistory π :=
  let (id, worker) := h.worker.arm delayMs payload
  ⟨worker, .armed id h.worker.clock delayMs :: h.events⟩

def cancel (h : TimerHistory π) (id : Nat) : TimerHistory π :=
  let (found, worker) := h.worker.cancel id
  ⟨worker, .cancelled id found :: h.events⟩

def act (h : TimerHistory π) : List (TimerAction π) → TimerHistory π
  | [] => h
  | .arm delayMs payload :: rest => (h.arm delayMs payload).act rest
  | .cancel id :: rest => (h.cancel id).act rest

def turn [Runnable π] (h : TimerHistory π) : TimerHistory π :=
  match h.worker.popDue? with
  | none => h
  | some (t, worker) =>
    (⟨worker, .fired t h.worker.clock :: h.events⟩ : TimerHistory π).act (Runnable.actions t.payload)

def record [Runnable π] (h : TimerHistory π) : TimerOperation π → TimerHistory π
  | .arm delayMs payload => if h.worker.stopped then h else h.arm delayMs payload
  | .cancel id => if h.worker.stopped then h else h.cancel id
  | .advance ms => { h with worker := h.worker.advance ms }
  | .turn => h.turn
  | .drop => { h with worker := h.worker.stop }

/-! ## The worker of a history -/

theorem act_worker : ∀ (actions : List (TimerAction π)) (h : TimerHistory π),
    (h.act actions).worker = (h.worker.perform actions).2
  | [], _ => rfl
  | .arm delayMs payload :: rest, h => act_worker rest (h.arm delayMs payload)
  | .cancel id :: rest, h => act_worker rest (h.cancel id)

variable [Runnable π]

theorem turn_worker (h : TimerHistory π) : h.turn.worker = h.worker.step.2 := by
  unfold turn TimerWorker.step
  rcases h.worker.popDue? with _ | ⟨t, worker⟩
  · rfl
  · exact act_worker _ _

theorem record_worker (h : TimerHistory π) (op : TimerOperation π) :
    (h.record op).worker = op.leave h.worker := by
  cases op with
  | arm delayMs payload =>
    unfold record TimerOperation.leave
    dsimp only
    split <;> rfl
  | cancel id =>
    unfold record TimerOperation.leave
    dsimp only
    split <;> rfl
  | turn => exact turn_worker h
  | advance ms => rfl
  | drop => rfl

theorem run_worker : ∀ (ops : List (TimerOperation π)) (h : TimerHistory π),
    (ops.foldl record h).worker = ops.foldl TimerOperation.leave h.worker
  | [], _ => rfl
  | op :: ops, h => by
    rw [List.foldl_cons, List.foldl_cons, run_worker ops, record_worker]

end TimerHistory

/-! ## Pending timers by their ids -/

namespace TimerWorker

def pendingIds (w : TimerWorker π) : List Nat := w.queue.pending.map PendingTimer.id

theorem insert_perm (t : PendingTimer π) (us : List (PendingTimer π)) :
    (TimerQueue.insert t us).Perm (t :: us) := by
  induction us with
  | nil => exact .refl _
  | cons u us ih =>
    unfold TimerQueue.insert
    split
    · exact .refl _
    · exact (ih.cons u).trans (.swap t u us)

theorem count_pendingIds_arm (w : TimerWorker π) (delayMs : Nat) (payload : π) (id : Nat) :
    (w.arm delayMs payload).2.pendingIds.count id =
      w.pendingIds.count id + if w.queue.nextId = id then 1 else 0 := by
  have hperm := (insert_perm ⟨w.clock + delayMs, w.queue.nextId, payload⟩ w.queue.pending).map
    PendingTimer.id
  have hcount := hperm.count_eq id
  rw [List.map_cons, List.count_cons] at hcount
  show ((TimerQueue.insert _ w.queue.pending).map PendingTimer.id).count id = _
  rw [hcount]
  simp only [beq_iff_eq]
  rfl

theorem count_pendingIds_cancel (w : TimerWorker π) (cancelled id : Nat) :
    (w.cancel cancelled).2.pendingIds.count id =
      if cancelled = id then 0 else w.pendingIds.count id := by
  have hids : (w.cancel cancelled).2.pendingIds = w.pendingIds.filter fun i => i != cancelled := by
    unfold pendingIds
    rw [List.filter_map]
    rfl
  rw [hids]
  split
  · next heq =>
    rw [List.count_eq_zero, heq]
    intro hmem
    simp at hmem
  · next hne =>
    exact List.count_filter (bne_iff_ne.mpr fun h => hne h.symm)

theorem cancel_answer (w : TimerWorker π) (id : Nat) :
    (w.cancel id).1 = true ↔ id ∈ w.pendingIds := by
  show (w.queue.pending.any fun t => t.id == id) = true ↔ _
  unfold pendingIds
  simp

theorem popDue?_eq_some {w w' : TimerWorker π} {t : PendingTimer π}
    (hpop : w.popDue? = some (t, w')) :
    w.stopped = false ∧ t.deadline ≤ w.clock ∧ w.queue.pending = t :: w'.queue.pending ∧
      w'.queue.nextId = w.queue.nextId ∧ w'.clock = w.clock ∧ w'.stopped = w.stopped := by
  unfold popDue? at hpop
  split at hpop
  · cases hpop
  · next hrunning =>
    unfold TimerQueue.popDue? at hpop
    split at hpop
    · cases hpop
    · next first rest hpending =>
      split at hpop
      · next hdue =>
        cases hpop
        exact ⟨Bool.eq_false_iff.mpr hrunning, hdue, hpending, rfl, rfl, rfl⟩
      · cases hpop

end TimerWorker

/-! ## What every step keeps -/

namespace TimerHistory

/-- Ids are handed out once and every one of them has one fate; what a cancel
answered is whether the timer was awaited then. -/
structure Kept (h : TimerHistory π) : Prop where
  next : h.worker.queue.nextId = (armedIds h.events).length + 1
  below : ∀ id ∈ armedIds h.events, id < h.worker.queue.nextId
  nodup : (armedIds h.events).Nodup
  fates : ∀ id, (armedIds h.events).count id = h.worker.pendingIds.count id +
    (firedIds h.events).count id + (cancelledIds h.events).count id
  answers : ∀ after id found before, h.events = after ++ .cancelled id found :: before →
    (found = true ↔ Awaits before id)

variable {h : TimerHistory π}

theorem kept_fresh : (fresh : TimerHistory π).Kept where
  next := rfl
  below := nofun
  nodup := .nil
  fates _ := rfl
  answers after _ _ _ heq := by
    cases after <;> cases heq

theorem Kept.awaits (hk : h.Kept) (id : Nat) : id ∈ h.worker.pendingIds ↔ Awaits h.events id := by
  have hfates := hk.fates id
  have hone := List.nodup_iff_count_le_one.mp hk.nodup id
  unfold Awaits
  rw [← List.count_pos_iff, ← List.count_pos_iff, ← List.count_eq_zero, ← List.count_eq_zero]
  omega

theorem answers_cons {e : TimerEvent π} {events : List (TimerEvent π)}
    (hold : ∀ after id found before, events = after ++ .cancelled id found :: before →
      (found = true ↔ Awaits before id))
    (he : ∀ id found, e = .cancelled id found → (found = true ↔ Awaits events id)) :
    ∀ after id found before, e :: events = after ++ .cancelled id found :: before →
      (found = true ↔ Awaits before id)
  | [], id, found, before, heq => by
    obtain ⟨rfl, rfl⟩ := List.cons.inj heq
    exact he id found rfl
  | _ :: after, id, found, before, heq => hold after id found before (List.cons.inj heq).2

theorem Kept.arm (hk : h.Kept) (delayMs : Nat) (payload : π) : (h.arm delayMs payload).Kept where
  next := congrArg Nat.succ hk.next
  below id hid := by
    rcases List.mem_cons.mp hid with rfl | hid
    · exact Nat.lt_succ_self _
    · exact Nat.lt_succ_of_lt (hk.below id hid)
  nodup := List.nodup_cons.mpr ⟨fun hid => Nat.lt_irrefl _ (hk.below _ hid), hk.nodup⟩
  fates id := by
    have hfates := hk.fates id
    have hpending := h.worker.count_pendingIds_arm delayMs payload id
    show (h.worker.queue.nextId :: armedIds h.events).count id =
      (h.worker.arm delayMs payload).2.pendingIds.count id + (firedIds h.events).count id +
        (cancelledIds h.events).count id
    rw [List.count_cons, hpending, hfates]
    simp only [beq_iff_eq]
    omega
  answers := answers_cons hk.answers nofun

theorem Kept.cancel (hk : h.Kept) (id : Nat) : (h.cancel id).Kept where
  next := hk.next
  below := hk.below
  nodup := hk.nodup
  fates i := by
    have hfates := hk.fates i
    have hone := List.nodup_iff_count_le_one.mp hk.nodup i
    have hpending := h.worker.count_pendingIds_cancel id i
    have hanswer := h.worker.cancel_answer id
    show (armedIds h.events).count i = (h.worker.cancel id).2.pendingIds.count i +
      (firedIds h.events).count i +
        (cancelledIds (.cancelled id (h.worker.cancel id).1 :: h.events)).count i
    rw [hpending]
    cases hfound : (h.worker.cancel id).1 with
    | true =>
      have hmem : 0 < h.worker.pendingIds.count id := List.count_pos_iff.mpr (hanswer.mp hfound)
      show _ = _ + _ + (id :: cancelledIds h.events).count i
      rw [List.count_cons]
      simp only [beq_iff_eq]
      split
      · next heq =>
        rw [heq] at hmem
        omega
      · omega
    | false =>
      have hnone : h.worker.pendingIds.count id = 0 := by
        rw [List.count_eq_zero, ← hanswer, hfound]
        exact Bool.false_ne_true
      show _ = _ + _ + (cancelledIds h.events).count i
      split
      · next heq =>
        rw [heq] at hnone
        omega
      · omega
  answers := by
    refine answers_cons hk.answers ?_
    intro i found heq
    cases heq
    exact (h.worker.cancel_answer id).trans (hk.awaits id)

theorem Kept.act : ∀ (actions : List (TimerAction π)) {h : TimerHistory π}, h.Kept →
    (h.act actions).Kept
  | [], _, hk => hk
  | .arm delayMs payload :: rest, _, hk => Kept.act rest (hk.arm delayMs payload)
  | .cancel id :: rest, _, hk => Kept.act rest (hk.cancel id)

theorem Kept.pop (hk : h.Kept) {t : PendingTimer π} {worker : TimerWorker π}
    (hpop : h.worker.popDue? = some (t, worker)) (time : Nat) :
    (⟨worker, .fired t time :: h.events⟩ : TimerHistory π).Kept := by
  obtain ⟨-, -, hpending, hnext, -⟩ := TimerWorker.popDue?_eq_some hpop
  constructor
  · rw [hnext]
    exact hk.next
  · intro id hid
    rw [hnext]
    exact hk.below id hid
  · exact hk.nodup
  · intro id
    have hfates := hk.fates id
    have hids : h.worker.pendingIds = t.id :: worker.pendingIds := by
      unfold TimerWorker.pendingIds
      rw [hpending, List.map_cons]
    rw [hids, List.count_cons] at hfates
    show (armedIds h.events).count id = worker.pendingIds.count id +
      (t.id :: firedIds h.events).count id + (cancelledIds h.events).count id
    rw [List.count_cons]
    omega
  · exact answers_cons hk.answers nofun

variable [Runnable π]

theorem Kept.turn (hk : h.Kept) : h.turn.Kept := by
  unfold TimerHistory.turn
  split
  · exact hk
  · next t worker hpop => exact Kept.act _ (hk.pop hpop _)

theorem Kept.record (hk : h.Kept) (op : TimerOperation π) : (h.record op).Kept := by
  cases op with
  | arm delayMs payload =>
    unfold TimerHistory.record
    dsimp only
    split
    · exact hk
    · exact hk.arm delayMs payload
  | cancel id =>
    unfold TimerHistory.record
    dsimp only
    split
    · exact hk
    · exact hk.cancel id
  | advance ms => exact ⟨hk.next, hk.below, hk.nodup, hk.fates, hk.answers⟩
  | turn => exact hk.turn
  | drop => exact ⟨hk.next, hk.below, hk.nodup, hk.fates, hk.answers⟩

theorem Kept.run : ∀ (ops : List (TimerOperation π)) {h : TimerHistory π}, h.Kept →
    (ops.foldl TimerHistory.record h).Kept
  | [], _, hk => hk
  | op :: ops, _, hk => Kept.run ops (hk.record op)

/-! ## What a history can still become -/

end TimerHistory

/-! ## Fates -/

namespace TimerHistory

variable {h : TimerHistory π}

theorem Kept.total (hk : h.Kept) :
    h.worker.queue.size + (firedIds h.events).length + (cancelledIds h.events).length =
      (armedIds h.events).length := by
  have hperm : (armedIds h.events).Perm
      (h.worker.pendingIds ++ firedIds h.events ++ cancelledIds h.events) := by
    rw [List.perm_iff_count]
    intro id
    rw [List.count_append, List.count_append]
    exact hk.fates id
  have hlength := hperm.length_eq
  rw [List.length_append, List.length_append] at hlength
  have hsize : h.worker.pendingIds.length = h.worker.queue.size := List.length_map _
  omega

/-- No id is above the number of timers armed, so an id of 64 bits is the same for as many
of them. -/
theorem ids_fit [Runnable π] (ops : List (TimerOperation π)) :
    let h := ops.foldl record .fresh
    let armed := (armedIds h.events).length
    h.worker.queue.nextId = armed + 1 ∧ (∀ id ∈ armedIds h.events, id ≤ armed) ∧
      (armed < UInt64.size → ∀ id ∈ armedIds h.events, (UInt64.ofNat id).toNat = id) := by
  intro h armed
  have hk : h.Kept := kept_fresh.run ops
  have hbelow (id : Nat) (hid : id ∈ armedIds h.events) : id ≤ armed := by
    have hlt := hk.below id hid
    rw [hk.next] at hlt
    exact Nat.le_of_lt_succ hlt
  refine ⟨hk.next, hbelow, fun hfew id hid => ?_⟩
  exact UInt64.toNat_ofNat_of_lt' (Nat.lt_of_le_of_lt (hbelow id hid) hfew)

end TimerHistory

end Retune
