import Retune.Proofs.BenchFile
import Retune.Proofs.Footprint

/-!
# Pending timers

What a station promises about its timers: only arming adds one, a cancelled one
is gone, and registers and notices have nothing to do with them. Both kinds of
timers on the bench keep these promises.
-/

namespace Retune

open Relation

variable {σ : Type}

/-- The timers of a station that are pending in a state, by their ids. -/
structure Timers (h : Host σ) (st : Station σ) where
  pending : σ → Nat → Prop
  load : ∀ {s id} addr, pending (h.load addr s).2 id → pending s id
  store : ∀ {s id} addr value, pending (h.store addr value s).2 id → pending s id
  hostReport : ∀ {s id} n, pending (h.report n s).2 id → pending s id
  report : ∀ n s, pending (st.report n s).2 = pending s
  stopRequested : ∀ {s id} signal, pending (st.stopRequested signal s).2 id → pending s id
  pause : ∀ {s id} ms, pending (st.pause ms s).2 id → pending s id
  elapse : ∀ {s id}, pending (st.elapse s).2 id → pending s id
  armTimer : ∀ {s id} ms generation, pending (st.armTimer ms generation s).2 id →
    pending s id ∨ id = (st.armTimer ms generation s).1
  armed : ∀ ms generation s,
    pending (st.armTimer ms generation s).2 (st.armTimer ms generation s).1
  cancelTimer : ∀ {s id} cancelled, pending (st.cancelTimer cancelled s).2 id →
    pending s id ∧ id ≠ cancelled

namespace Timers
variable {h : Host σ} {st : Station σ} (timers : Timers h st)

def NoneNew (s s' : σ) : Prop := ∀ id, timers.pending s' id → timers.pending s id

variable {timers} {s s' s'' : σ}

theorem NoneNew.refl : timers.NoneNew s s := fun _ => id

theorem NoneNew.trans (h₁ : timers.NoneNew s s') (h₂ : timers.NoneNew s' s'') :
    timers.NoneNew s s'' :=
  fun id hid => h₁ id (h₂ id hid)

theorem noneNew_act (hact : h.Act s s') : timers.NoneNew s s' := by
  intro id hid
  cases hact with
  | load addr => exact timers.load addr hid
  | store addr value => exact timers.store addr value hid
  | report n => exact timers.hostReport n hid

theorem noneNew_acts (hacts : ReflTransGen h.Act s s') : timers.NoneNew s s' := by
  induction hacts with
  | refl => exact .refl
  | tail _ hact ih => exact ih.trans (noneNew_act hact)

theorem noneNew_report (n : Notice) : timers.NoneNew s (st.report n s).2 := by
  intro id hid
  rw [timers.report n s] at hid
  exact hid

theorem noneNew_capture {p p' : Pll} {r : Except Failure Unit}
    (hrun : (Pll.adjustable h).capture p s = ((r, p'), s')) : timers.NoneNew s s' := by
  have hacts := Pll.acts_capture (h := h) p s
  have hs : (Pll.capture h p s).2 = s' := congrArg Prod.snd hrun
  rw [hs] at hacts
  exact noneNew_acts hacts

theorem noneNew_retune {p : Pll} {clock : Float} {r : Except Failure Pll}
    (hrun : (Pll.adjustable h).retune p clock s = (r, s')) : timers.NoneNew s s' := by
  have hacts := Pll.acts_retune (h := h) p clock s
  have hs : (p.retune h clock s).2 = s' := congrArg Prod.snd hrun
  rw [show ((p.retune h clock).run s).2 = s' from hs] at hacts
  exact noneNew_acts hacts

theorem noneNew_program (p : Pll) (v : Version) (s : σ) :
    timers.NoneNew s ((Pll.adjustable h).program p v s).2 :=
  noneNew_acts (Pll.acts_program p v s)

end Timers

/-! ## Timers on the bench -/

namespace Bench

def scheduling (b : Bench) : HandTimers × Store Nat (TimerWorker Expiry) := (b.timers, b.workers)

theorem scheduling_hear (b : Bench) (n : Notice) : (b.hear n).scheduling = b.scheduling := by
  unfold hear
  cases b.listening? with
  | none => rfl
  | some level =>
    dsimp only
    split <;> rfl

theorem scheduling_noteAccess (b : Bench) (a : Access) :
    (b.noteAccess a).scheduling = b.scheduling := by
  unfold noteAccess
  split <;> rfl

theorem scheduling_noteWrite (b : Bench) (addr value : UInt32) (event? : Option BusEvent) :
    (b.noteWrite addr value event?).scheduling = b.scheduling := by
  unfold noteWrite
  cases event? with
  | some e => rfl
  | none =>
    dsimp only
    split <;> rfl

theorem scheduling_runHook (b : Bench) (addr value : UInt32) :
    (b.runHook addr value).scheduling = b.scheduling := by
  unfold runHook
  cases b.hook? with
  | none => rfl
  | some k =>
    dsimp only
    split <;> rfl

theorem scheduling_load (b : Bench) (addr : UInt32) : (b.load addr).2.scheduling = b.scheduling :=
  scheduling_noteAccess _ _

theorem scheduling_store (b : Bench) (addr value : UInt32) :
    (b.store addr value).scheduling = b.scheduling := by
  unfold store
  dsimp only
  rw [scheduling_runHook, scheduling_noteWrite, scheduling_noteAccess]
  rfl

/-! ## Timers fired by hand -/

def PendingByHand (session : Nat) (b : Bench) (id : Nat) : Prop :=
  ∃ t ∈ b.timers.pending, t.id = id ∧ t.expiry.session = session

theorem pendingByHand_of_eq {session : Nat} {b b' : Bench} (hb : b'.scheduling = b.scheduling) :
    PendingByHand session b' = PendingByHand session b := by
  have htimers : b'.timers = b.timers := congrArg Prod.fst hb
  unfold PendingByHand
  rw [htimers]

theorem pendingByHand_arm {session : Nat} {b : Bench} {id : Nat} (ms : UInt64) (generation : Nat) :
    PendingByHand session ((handStation session).armTimer ms generation b).2 id ↔
      PendingByHand session b id ∨ id = b.timers.nextId := by
  constructor
  · rintro ⟨t, ht, hid, hsession⟩
    rcases List.mem_append.mp ht with ht | ht
    · exact .inl ⟨t, ht, hid, hsession⟩
    · right
      rw [List.mem_singleton.mp ht] at hid
      exact hid.symm
  · rintro (⟨t, ht, hid, hsession⟩ | rfl)
    · exact ⟨t, List.mem_append_left _ ht, hid, hsession⟩
    · exact ⟨⟨b.timers.nextId, ms, session, generation⟩,
        List.mem_append_right _ (List.mem_singleton_self _), rfl, rfl⟩

theorem pendingByHand_cancel {session : Nat} {b : Bench} {id cancelled : Nat}
    (hid : PendingByHand session ((handStation session).cancelTimer cancelled b).2 id) :
    PendingByHand session b id ∧ id ≠ cancelled := by
  obtain ⟨t, ht, rfl, hsession⟩ := hid
  have hfiltered : t ∈ b.timers.pending ∧ (t.id != cancelled) = true := List.mem_filter.mp ht
  exact ⟨⟨t, hfiltered.1, rfl, hsession⟩, bne_iff_ne.mp hfiltered.2⟩

/-! ## Timers of a worker -/

/-- Whether the worker of the session has a timer that has not gone off. -/
def PendingInWorker (session : Nat) (b : Bench) (id : Nat) : Prop :=
  ∃ t ∈ (b.worker session).queue.pending, t.id = id

theorem pendingInWorker_of_eq {session : Nat} {b b' : Bench} (hb : b'.scheduling = b.scheduling) :
    PendingInWorker session b' = PendingInWorker session b := by
  have hworkers : b'.workers = b.workers := congrArg Prod.snd hb
  unfold PendingInWorker worker
  rw [hworkers]

theorem worker_setWorker (b : Bench) (session : Nat) (w : TimerWorker Expiry) :
    (b.setWorker session w).worker session = w := by
  unfold worker setWorker
  rw [Store.get_set, if_pos rfl]

theorem pendingInWorker_setWorker {session : Nat} {b : Bench} {w : TimerWorker Expiry} {id : Nat} :
    PendingInWorker session (b.setWorker session w) id ↔ ∃ t ∈ w.queue.pending, t.id = id := by
  unfold PendingInWorker
  rw [worker_setWorker]

theorem pendingInWorker_arm {session : Nat} {b : Bench} {id : Nat} (ms : UInt64)
    (generation : Nat) :
    PendingInWorker session ((workerStation session).armTimer ms generation b).2 id ↔
      PendingInWorker session b id ∨ id = (b.worker session).queue.nextId := by
  show PendingInWorker session ((b.setWorker session
    ((b.worker session).arm ms.toNat ⟨session, generation⟩).2).hear _) id ↔ _
  rw [pendingInWorker_of_eq (scheduling_hear _ _), pendingInWorker_setWorker]
  constructor
  · rintro ⟨t, ht, hid⟩
    rcases TimerQueue.mem_insert.mp ht with rfl | ht
    · exact .inr hid.symm
    · exact .inl ⟨t, ht, hid⟩
  · rintro (⟨t, ht, hid⟩ | rfl)
    · exact ⟨t, TimerQueue.mem_insert.mpr (.inr ht), hid⟩
    · exact ⟨_, TimerQueue.mem_insert.mpr (.inl rfl), rfl⟩

theorem pendingInWorker_cancel {session : Nat} {b : Bench} {id cancelled : Nat}
    (hid : PendingInWorker session ((workerStation session).cancelTimer cancelled b).2 id) :
    PendingInWorker session b id ∧ id ≠ cancelled := by
  let w := ((b.worker session).cancel cancelled).2
  have hset : PendingInWorker session (b.setWorker session w) id := by
    have hheard : PendingInWorker session (if ((b.worker session).cancel cancelled).1 = true then
        (b.setWorker session w).hear (TimerNotice.cancelled cancelled)
        else b.setWorker session w) id := hid
    split at hheard
    · rw [pendingInWorker_of_eq (scheduling_hear _ _)] at hheard
      exact hheard
    · exact hheard
  obtain ⟨t, ht, rfl⟩ := pendingInWorker_setWorker.mp hset
  have hfiltered : t ∈ (b.worker session).queue.pending ∧ (t.id != cancelled) = true :=
    List.mem_filter.mp ht
  exact ⟨⟨t, hfiltered.1, rfl⟩, bne_iff_ne.mp hfiltered.2⟩

theorem pendingInWorker_pause {session : Nat} {b : Bench} {id : Nat} (ms : UInt64)
    (hid : PendingInWorker session ((workerStation session).pause ms b).2 id) :
    PendingInWorker session b id := by
  have hset : PendingInWorker session
      (b.setWorker session ((b.worker session).advance ms.toNat)) id := hid
  obtain ⟨t, ht, hid⟩ := pendingInWorker_setWorker.mp hset
  exact ⟨t, ht, hid⟩

theorem pending_step {w : TimerWorker Expiry} {t : PendingTimer Expiry}
    (ht : t ∈ w.step.2.queue.pending) : t ∈ w.queue.pending := by
  unfold TimerWorker.step TimerWorker.popDue? TimerQueue.popDue? at ht
  cases hstopped : w.stopped with
  | true =>
    simp only [hstopped, if_true] at ht
    exact ht
  | false =>
    rcases hpending : w.queue.pending with _ | ⟨first, rest⟩
    · simp only [hstopped, hpending] at ht
      exact hpending ▸ ht
    · by_cases hdue : first.deadline ≤ w.clock
      · simp only [hstopped, hpending, hdue, if_true] at ht
        exact List.mem_cons_of_mem _ ht
      · simp only [hstopped, hpending, hdue, if_false] at ht
        exact hpending ▸ ht

theorem pending_drain : ∀ (fuel : Nat) {w : TimerWorker Expiry} {t : PendingTimer Expiry},
    t ∈ (drain w fuel).2.queue.pending → t ∈ w.queue.pending
  | 0, _, _, ht => ht
  | fuel + 1, w, t, ht => by
    unfold drain at ht
    rcases hstep : w.step with ⟨_ | fired, w'⟩ <;> rw [hstep] at ht
    · exact pending_step (by rw [hstep]; exact ht)
    · have hrest := pending_drain fuel ht
      exact pending_step (by rw [hstep]; exact hrest)

theorem scheduling_fired : ∀ (fired : List (FiredTimer Expiry)) (b : Bench),
    (fired.foldl (fun b t => b.hear (TimerNotice.fired t.timer.id)) b).scheduling = b.scheduling
  | [], _ => rfl
  | t :: fired, b => by
    rw [List.foldl_cons, scheduling_fired fired, scheduling_hear]

theorem pendingInWorker_elapse {session : Nat} {b : Bench} {id : Nat}
    (hid : PendingInWorker session (elapse session b).2 id) : PendingInWorker session b id := by
  have hfired := scheduling_fired
    (drain ((b.worker session).advance 1) ((b.worker session).advance 1).queue.size).1
    (b.setWorker session
      (drain ((b.worker session).advance 1) ((b.worker session).advance 1).queue.size).2)
  unfold elapse at hid
  dsimp only at hid
  rw [pendingInWorker_of_eq hfired, pendingInWorker_setWorker] at hid
  obtain ⟨t, ht, hid⟩ := hid
  have hbefore : t ∈ ((b.worker session).advance 1).queue.pending := pending_drain _ ht
  exact ⟨t, hbefore, hid⟩

def timersOf (session : Nat) : (kind : TimerKind) → Timers host (Session.station session kind)
  | .byHand => {
      pending := PendingByHand session
      load := fun addr hid => pendingByHand_of_eq (scheduling_load _ addr) ▸ hid
      store := fun addr value hid => pendingByHand_of_eq (scheduling_store _ addr value) ▸ hid
      hostReport := fun n hid => pendingByHand_of_eq (scheduling_hear _ n) ▸ hid
      report := fun n b => pendingByHand_of_eq (scheduling_hear b n)
      stopRequested := fun _ => id
      pause := fun _ => id
      elapse := id
      armTimer := fun ms generation hid => (pendingByHand_arm ms generation).mp hid
      armed := fun ms generation _ => (pendingByHand_arm ms generation).mpr (.inr rfl)
      cancelTimer := fun _ => pendingByHand_cancel }
  | .ownWorker => {
      pending := PendingInWorker session
      load := fun addr hid => pendingInWorker_of_eq (scheduling_load _ addr) ▸ hid
      store := fun addr value hid => pendingInWorker_of_eq (scheduling_store _ addr value) ▸ hid
      hostReport := fun n hid => pendingInWorker_of_eq (scheduling_hear _ n) ▸ hid
      report := fun n b => pendingInWorker_of_eq (scheduling_hear b n)
      stopRequested := fun _ => id
      pause := fun ms => pendingInWorker_pause ms
      elapse := pendingInWorker_elapse
      armTimer := fun ms generation hid => (pendingInWorker_arm ms generation).mp hid
      armed := fun ms generation _ => (pendingInWorker_arm ms generation).mpr (.inr rfl)
      cancelTimer := fun _ => pendingInWorker_cancel }

end Bench

end Retune
