import Mathlib.Data.Prod.Lex
import Retune.Proofs.Fates

/-!
# The order in which timers go off

Pending timers are kept in the order of their keys, and every one of them comes
after all that went off. A payload that arms another timer cannot break that,
whatever the delay: the clock has reached what went off and the id is new.
-/

namespace Retune

variable {π : Type}

/-! ## Keys -/

def PendingTimer.key (t : PendingTimer π) : Nat ×ₗ Nat := toLex (t.deadline, t.id)

theorem PendingTimer.before_iff {t u : PendingTimer π} : t.before u = true ↔ t.key < u.key := by
  unfold PendingTimer.before PendingTimer.key
  rw [Prod.Lex.toLex_lt_toLex]
  simp

theorem key_lt_later {t : PendingTimer π} {clock delayMs id : Nat} (hreached : t.deadline ≤ clock)
    (hid : t.id < id) : t.key < toLex (clock + delayMs, id) := by
  unfold PendingTimer.key
  rw [Prod.Lex.toLex_lt_toLex]
  dsimp only
  omega

def InOrder (timers : List (PendingTimer π)) : Prop := timers.Pairwise fun t u => t.key < u.key

theorem InOrder.insert {t : PendingTimer π} : ∀ {us : List (PendingTimer π)}, InOrder us →
    (∀ u ∈ us, u.key ≠ t.key) → InOrder (TimerQueue.insert t us)
  | [], _, _ => List.pairwise_singleton _ t
  | u :: us, hus, hne => by
    obtain ⟨hfirst, hrest⟩ := List.pairwise_cons.mp hus
    unfold TimerQueue.insert
    split
    · next hbefore =>
      have hlt := PendingTimer.before_iff.mp hbefore
      refine List.pairwise_cons.mpr ⟨fun v hv => ?_, hus⟩
      rcases List.mem_cons.mp hv with rfl | hv
      · exact hlt
      · exact hlt.trans (hfirst v hv)
    · next hafter =>
      have hle : u.key ≤ t.key := not_lt.mp fun hlt => hafter (PendingTimer.before_iff.mpr hlt)
      have hlt : u.key < t.key := lt_of_le_of_ne hle (hne u (List.mem_cons_self ..))
      refine List.pairwise_cons.mpr ⟨fun v hv => ?_, ?_⟩
      · rcases TimerQueue.mem_insert.mp hv with rfl | hv
        · exact hlt
        · exact hfirst v hv
      · exact InOrder.insert hrest fun v hv => hne v (List.mem_cons_of_mem u hv)

/-! ## What went off -/

def TimerEvent.firing? : TimerEvent π → Option (PendingTimer π)
  | fired t _ => some t
  | _ => none

def firings (events : List (TimerEvent π)) : List (PendingTimer π) :=
  events.filterMap TimerEvent.firing?

/-- A timer that goes off after such a history is due, was armed that long before,
and comes before all that are still awaited. -/
structure InTurn (before : List (TimerEvent π)) (t : PendingTimer π) (time : Nat) : Prop where
  due : t.deadline ≤ time
  armed : ∃ start delayMs, .armed t.id start delayMs ∈ before ∧ t.deadline = start + delayMs
  first : ∀ id start delayMs, .armed id start delayMs ∈ before → Awaits before id → id ≠ t.id →
    t.key < toLex (start + delayMs, id)

namespace TimerHistory

theorem mem_armedIds {events : List (TimerEvent π)} {id : Nat} :
    id ∈ armedIds events ↔ ∃ start delayMs, .armed id start delayMs ∈ events := by
  unfold armedIds
  rw [List.mem_filterMap]
  constructor
  · rintro ⟨e, he, hid⟩
    cases e with
    | armed i start delayMs =>
      cases hid
      exact ⟨start, delayMs, he⟩
    | fired => cases hid
    | cancelled => cases hid
  · rintro ⟨start, delayMs, he⟩
    exact ⟨_, he, rfl⟩

/-! ## What every step keeps -/

/-- Pending timers are in order, new to the next id and after all that went off. -/
structure Punctual (h : TimerHistory π) : Prop where
  kept : h.Kept
  sorted : InOrder h.worker.queue.pending
  dated : ∀ t ∈ h.worker.queue.pending, ∀ start delayMs,
    .armed t.id start delayMs ∈ h.events → t.deadline = start + delayMs
  past : ∀ t ∈ firings h.events, t.deadline ≤ h.worker.clock ∧ t.id < h.worker.queue.nextId
  later : ∀ t ∈ firings h.events, ∀ u ∈ h.worker.queue.pending, t.key < u.key
  ascending : (armedIds h.events).Pairwise fun i j => j < i
  ordered : (firings h.events).Pairwise fun t u => u.key < t.key
  inTurn : ∀ after t time before, h.events = after ++ .fired t time :: before → InTurn before t time

variable {h : TimerHistory π}

theorem punctual_fresh : (fresh : TimerHistory π).Punctual where
  kept := kept_fresh
  sorted := .nil
  dated := nofun
  past := nofun
  later := nofun
  ascending := .nil
  ordered := .nil
  inTurn after _ _ _ heq := by
    cases after <;> cases heq

theorem Kept.mem_armedIds (hk : h.Kept) {t : PendingTimer π} (ht : t ∈ h.worker.queue.pending) :
    t.id ∈ armedIds h.events :=
  ((hk.awaits t.id).mp (List.mem_map_of_mem ht)).1

theorem Punctual.below (hp : h.Punctual) {t : PendingTimer π} (ht : t ∈ h.worker.queue.pending) :
    t.id < h.worker.queue.nextId :=
  hp.kept.below t.id (hp.kept.mem_armedIds ht)

theorem inTurn_cons {e : TimerEvent π} {events : List (TimerEvent π)}
    (hold : ∀ after t time before, events = after ++ .fired t time :: before →
      InTurn before t time)
    (he : ∀ t time, e = .fired t time → InTurn events t time) :
    ∀ after t time before, e :: events = after ++ .fired t time :: before → InTurn before t time
  | [], t, time, before, heq => by
    obtain ⟨rfl, rfl⟩ := List.cons.inj heq
    exact he t time rfl
  | _ :: after, t, time, before, heq => hold after t time before (List.cons.inj heq).2

theorem Punctual.arm (hp : h.Punctual) (delayMs : Nat) (payload : π) :
    (h.arm delayMs payload).Punctual where
  kept := hp.kept.arm delayMs payload
  sorted := by
    refine hp.sorted.insert fun u hu heq => ?_
    have hid : u.id = h.worker.queue.nextId := congrArg (fun k => (ofLex k).2) heq
    exact Nat.ne_of_lt (hp.below hu) hid
  dated t ht start delay harmed := by
    rcases TimerQueue.mem_insert.mp ht with rfl | ht
    · rcases List.mem_cons.mp harmed with heq | hearlier
      · cases heq
        rfl
      · have hbelow := hp.kept.below _ (mem_armedIds.mpr ⟨start, delay, hearlier⟩)
        exact absurd hbelow (Nat.lt_irrefl _)
    · rcases List.mem_cons.mp harmed with heq | hearlier
      · have hid : t.id = h.worker.queue.nextId := (TimerEvent.armed.inj heq).1
        exact absurd hid (Nat.ne_of_lt (hp.below ht))
      · exact hp.dated t ht start delay hearlier
  past t ht := ⟨(hp.past t ht).1, Nat.lt_succ_of_lt (hp.past t ht).2⟩
  later t ht u hu := by
    rcases TimerQueue.mem_insert.mp hu with rfl | hu
    -- with no delay at all the deadline is the clock, and the higher id decides
    · exact key_lt_later (hp.past t ht).1 (hp.past t ht).2
    · exact hp.later t ht u hu
  ascending := List.pairwise_cons.mpr ⟨hp.kept.below, hp.ascending⟩
  ordered := hp.ordered
  inTurn := inTurn_cons hp.inTurn nofun

theorem Punctual.cancel (hp : h.Punctual) (id : Nat) : (h.cancel id).Punctual where
  kept := hp.kept.cancel id
  sorted := hp.sorted.filter _
  dated t ht start delayMs harmed := by
    rcases List.mem_cons.mp harmed with heq | harmed
    · cases heq
    · exact hp.dated t (List.mem_of_mem_filter ht) start delayMs harmed
  past := hp.past
  later t ht u hu := hp.later t ht u (List.mem_of_mem_filter hu)
  ascending := hp.ascending
  ordered := hp.ordered
  inTurn := inTurn_cons hp.inTurn nofun

theorem Punctual.act : ∀ (actions : List (TimerAction π)) {h : TimerHistory π}, h.Punctual →
    (h.act actions).Punctual
  | [], _, hp => hp
  | .arm delayMs payload :: rest, _, hp => Punctual.act rest (hp.arm delayMs payload)
  | .cancel id :: rest, _, hp => Punctual.act rest (hp.cancel id)

theorem Punctual.advance (hp : h.Punctual) (ms : Nat) :
    ({ h with worker := h.worker.advance ms } : TimerHistory π).Punctual where
  kept := ⟨hp.kept.next, hp.kept.below, hp.kept.nodup, hp.kept.fates, hp.kept.answers⟩
  sorted := hp.sorted
  dated := hp.dated
  past t ht := ⟨(hp.past t ht).1.trans (Nat.le_add_right _ ms), (hp.past t ht).2⟩
  later := hp.later
  ascending := hp.ascending
  ordered := hp.ordered
  inTurn := hp.inTurn

theorem Punctual.first (hp : h.Punctual) {t : PendingTimer π} {rest : List (PendingTimer π)}
    (hpending : h.worker.queue.pending = t :: rest) {id start delayMs : Nat}
    (harmed : .armed id start delayMs ∈ h.events) (hawaited : Awaits h.events id)
    (hne : id ≠ t.id) : t.key < toLex (start + delayMs, id) := by
  -- what is awaited is still pending, and so behind the first
  obtain ⟨u, hu, rfl⟩ := List.mem_map.mp ((hp.kept.awaits id).mpr hawaited)
  have hdeadline : u.deadline = start + delayMs := hp.dated u hu start delayMs harmed
  have hsorted := hp.sorted
  rw [hpending] at hu hsorted
  rcases List.mem_cons.mp hu with rfl | hu
  · exact absurd rfl hne
  · have hlt := (List.pairwise_cons.mp hsorted).1 u hu
    rw [← hdeadline]
    exact hlt

theorem Punctual.pop (hp : h.Punctual) {t : PendingTimer π} {worker : TimerWorker π}
    (hpop : h.worker.popDue? = some (t, worker)) :
    (⟨worker, .fired t h.worker.clock :: h.events⟩ : TimerHistory π).Punctual := by
  obtain ⟨-, hdue, hpending, hnext, hclock, -⟩ := TimerWorker.popDue?_eq_some hpop
  have hmem : t ∈ h.worker.queue.pending := hpending ▸ List.mem_cons_self ..
  have hrest : ∀ u ∈ worker.queue.pending, u ∈ h.worker.queue.pending := fun u hu =>
    hpending ▸ List.mem_cons_of_mem t hu
  have hsorted := hp.sorted
  rw [hpending] at hsorted
  obtain ⟨hfirst, hothers⟩ := List.pairwise_cons.mp hsorted
  constructor
  · exact hp.kept.pop hpop _
  · exact hothers
  · intro u hu start delayMs harmed
    rcases List.mem_cons.mp harmed with heq | harmed
    · cases heq
    · exact hp.dated u (hrest u hu) start delayMs harmed
  · intro u hu
    show u.deadline ≤ worker.clock ∧ u.id < worker.queue.nextId
    rw [hclock, hnext]
    rcases List.mem_cons.mp hu with rfl | hu
    · exact ⟨hdue, hp.below hmem⟩
    · exact hp.past u hu
  · intro u hu v hv
    rcases List.mem_cons.mp hu with rfl | hu
    · exact hfirst v hv
    · exact hp.later u hu v (hrest v hv)
  · exact hp.ascending
  · exact List.pairwise_cons.mpr ⟨fun u hu => hp.later u hu t hmem, hp.ordered⟩
  · refine inTurn_cons hp.inTurn fun u time heq => ?_
    cases heq
    obtain ⟨start, delayMs, harmed⟩ := mem_armedIds.mp (hp.kept.mem_armedIds hmem)
    exact ⟨hdue, ⟨start, delayMs, harmed, hp.dated t hmem start delayMs harmed⟩,
      fun id start delayMs => hp.first hpending⟩

variable [Runnable π]

theorem Punctual.turn (hp : h.Punctual) : h.turn.Punctual := by
  unfold TimerHistory.turn
  split
  · exact hp
  · next t worker hpop => exact Punctual.act _ (hp.pop hpop)

theorem Punctual.record (hp : h.Punctual) (op : TimerOperation π) : (h.record op).Punctual := by
  cases op with
  | arm delayMs payload =>
    unfold TimerHistory.record
    dsimp only
    split
    · exact hp
    · exact hp.arm delayMs payload
  | cancel id =>
    unfold TimerHistory.record
    dsimp only
    split
    · exact hp
    · exact hp.cancel id
  | advance ms => exact hp.advance ms
  | turn => exact hp.turn
  | drop =>
    exact ⟨hp.kept.record .drop, hp.sorted, hp.dated, hp.past, hp.later, hp.ascending, hp.ordered,
      hp.inTurn⟩

theorem Punctual.run : ∀ (ops : List (TimerOperation π)) {h : TimerHistory π}, h.Punctual →
    (ops.foldl TimerHistory.record h).Punctual
  | [], _, hp => hp
  | op :: ops, _, hp => Punctual.run ops (hp.record op)

/-! ## A turn -/

omit [Runnable π] in
theorem firings_act : ∀ (actions : List (TimerAction π)) (h : TimerHistory π),
    firings (h.act actions).events = firings h.events
  | [], _ => rfl
  | .arm delayMs payload :: rest, h => firings_act rest (h.arm delayMs payload)
  | .cancel id :: rest, h => firings_act rest (h.cancel id)

theorem firings_turn (h : TimerHistory π) :
    firings h.turn.events = (h.worker.step.1.map FiredTimer.timer).toList ++ firings h.events := by
  unfold turn TimerWorker.step
  rcases h.worker.popDue? with _ | ⟨t, worker⟩
  · rfl
  · exact firings_act _ _

theorem Punctual.idle_iff (hp : h.Punctual) : h.worker.step.1 = none ↔
    h.worker.stopped = true ∨ ∀ t ∈ h.worker.queue.pending, h.worker.clock < t.deadline := by
  unfold TimerWorker.step
  cases hpop : h.worker.popDue? with
  | some popped =>
    obtain ⟨t, worker⟩ := popped
    obtain ⟨hrunning, hdue, hpending, -⟩ := TimerWorker.popDue?_eq_some hpop
    have hmem : t ∈ h.worker.queue.pending := hpending ▸ List.mem_cons_self ..
    refine iff_of_false nofun ?_
    rintro (hstopped | hnone)
    · rw [hrunning] at hstopped
      cases hstopped
    · exact Nat.not_lt_of_le hdue (hnone t hmem)
  | none =>
    refine iff_of_true rfl ?_
    cases hstopped : h.worker.stopped with
    | true => exact .inl rfl
    | false =>
      right
      have hsorted := hp.sorted
      unfold TimerWorker.popDue? TimerQueue.popDue? at hpop
      rw [hstopped] at hpop
      -- if the first is not due, none is
      cases hpending : h.worker.queue.pending with
      | nil => nofun
      | cons t rest =>
        rw [hpending] at hpop hsorted
        have hlate : h.worker.clock < t.deadline := by
          by_contra hdue
          simp [Nat.le_of_not_lt hdue] at hpop
        intro u hu
        rcases List.mem_cons.mp hu with rfl | hu
        · exact hlate
        · have hlt := (List.pairwise_cons.mp hsorted).1 u hu
          unfold PendingTimer.key at hlt
          rw [Prod.Lex.toLex_lt_toLex] at hlt
          dsimp only at hlt
          omega

end TimerHistory

/-- Whatever is done to a worker and whatever its payloads arm and cancel while
they run: the timers that went off did so in the order of their deadlines, those
with one deadline in the order they were armed. None went off before the time it
was armed plus its delay, and none while another with an earlier deadline was
awaited; and a worker that was not let go of runs a payload as long as any is
due. -/
theorem timers_fire_in_order [Runnable π] (ops : List (TimerOperation π)) :
    let h := ops.foldl TimerHistory.record .fresh
    (h.worker = ops.foldl TimerOperation.leave .fresh ∧
        firings h.turn.events =
          (h.worker.step.1.map FiredTimer.timer).toList ++ firings h.events) ∧
      (firings h.events).reverse.Pairwise (fun t u => t.key < u.key) ∧
      (armedIds h.events).reverse.Pairwise (fun i j => i < j) ∧
      (∀ after t time before, h.events = after ++ .fired t time :: before →
        InTurn before t time) ∧
      (∀ t ∈ firings h.events, t.deadline ≤ h.worker.clock) ∧
      (h.worker.step.1 = none ↔ h.worker.stopped = true ∨
        ∀ t ∈ h.worker.queue.pending, h.worker.clock < t.deadline) := by
  intro h
  have hp : h.Punctual := TimerHistory.Punctual.run ops TimerHistory.punctual_fresh
  exact ⟨⟨TimerHistory.run_worker ops _, h.firings_turn⟩, List.pairwise_reverse.mpr hp.ordered,
    List.pairwise_reverse.mpr hp.ascending, hp.inTurn, fun t ht => (hp.past t ht).1, hp.idle_iff⟩

end Retune
