import Retune.Proofs.Rollbacks
import Retune.Proofs.Timers

/-!
# The status of a controller

What a controller remembers of its adjustment agrees with the timers that are
pending: it is armed exactly while it is not done and holds a timer, and no
other timer of it is pending. Whoever waits for the end of an adjustment finds
it done.
-/

namespace Retune

open Controller

variable {σ : Type} {h : Host σ} {st : Station σ}

/-- A stop that was seen is still seen by the next to look. -/
def Station.KeepsStops (st : Station σ) : Prop :=
  ∀ signal s, (st.stopRequested signal s).1 = true →
    (st.stopRequested signal (st.stopRequested signal s).2).1 = true

/-- The phase, the flag, the timer that is held and the timers that are pending
tell the same story. -/
structure Consistent (timers : Timers h st) (c : Controller Pll) (s : σ) : Prop where
  held : ∀ id, timers.pending s id → c.progress.timer = some id
  holds : c.progress.timer.isSome = c.isArmed
  undone : c.isArmed → c.progress.done = false
  done : c.progress.phase.isOwing = false → c.progress.done = true

variable {timers : Timers h st} {c c' : Controller Pll} {s s' : σ}

/-! ## Steps -/

theorem isArmed_of_underway (hc : c.progress.phase.isUnderway) : c.isArmed = false := by
  cases hphase : c.progress.phase <;> rw [hphase] at hc <;>
    first
    | exact absurd hc Bool.false_ne_true
    | simp only [isArmed, Progress.isArmed, hphase, reduceCtorEq, decide_false]

theorem isArmed_of_not_owing (hc : c.progress.phase.isOwing = false) : c.isArmed = false := by
  cases harmed : c.isArmed with
  | false => rfl
  | true =>
    rw [isArmed_iff.mp harmed] at hc
    exact absurd hc.symm Bool.false_ne_true

theorem not_owing_of_underway (hc : c.progress.phase.isUnderway) :
    c.progress.phase.isOwing = false := by
  cases hphase : c.progress.phase <;> rw [hphase] at hc <;>
    first
    | rfl
    | exact absurd hc Bool.false_ne_true

theorem Consistent.quiet (hc : Consistent timers c s) (hs : timers.NoneNew s s')
    (hprogress : c'.progress = c.progress) : Consistent timers c' s' := by
  have harmed : c'.isArmed = c.isArmed := congrArg Progress.isArmed hprogress
  obtain ⟨hheld, hholds, hundone, hdone⟩ := hc
  constructor
  · intro id hid
    rw [hprogress]
    exact hheld id (hs id hid)
  · rw [hprogress, harmed]
    exact hholds
  · rw [hprogress, harmed]
    exact hundone
  · rw [hprogress]
    exact hdone

theorem Consistent.onward (hc : Consistent timers c s) (hs : timers.NoneNew s s')
    (hbefore : c.progress.phase.isOwing = false) (hafter : c'.progress.phase.isOwing = false)
    (htimer : c'.progress.timer = c.progress.timer) (hdone : c'.progress.done = c.progress.done) :
    Consistent timers c' s' where
  held id hid := by
    rw [htimer]
    exact hc.held id (hs id hid)
  holds := by
    rw [htimer, hc.holds, isArmed_of_not_owing hbefore, isArmed_of_not_owing hafter]
  undone harmed := by
    rw [isArmed_of_not_owing hafter] at harmed
    exact absurd harmed Bool.false_ne_true
  done _ := by
    rw [hdone]
    exact hc.done hbefore

theorem Consistent.none_pending (hc : Consistent timers c s) (harmed : c.isArmed = false)
    (id : Nat) : ¬ timers.pending s id := by
  intro hid
  have hholds := hc.holds
  rw [hc.held id hid, harmed] at hholds
  cases hholds

theorem Consistent.finish (hc : Consistent timers c s) (hs : timers.NoneNew s s')
    (harmed : c.isArmed = false) : Consistent timers (c.update .finish) s' where
  held id hid := hc.held id (hs id hid)
  holds := hc.holds.trans harmed
  undone := nofun
  done _ := rfl

theorem Consistent.arm (hc : Consistent timers c s) (hphase : c.progress.phase.isUnderway)
    (ms : UInt64) (generation : Nat) :
    Consistent timers ((c.update .arm).update (.withTimer (st.armTimer ms generation s).1))
      (st.armTimer ms generation s).2 where
  held id hid := by
    rcases timers.armTimer ms generation hid with hbefore | rfl
    · exact absurd hbefore (hc.none_pending (isArmed_of_underway hphase) id)
    · rfl
  holds := rfl
  undone _ := rfl
  done := nofun

theorem Consistent.rollBack (hc : Consistent timers c s) (harmed : c.isArmed) :
    Consistent timers (c.update .rollBack) (disarm st c.progress s) where
  held id hid := by
    have hholds := hc.holds
    unfold disarm at hid
    cases htimer : c.progress.timer with
    | none =>
      rw [htimer, harmed] at hholds
      cases hholds
    | some cancelled =>
      rw [htimer] at hid
      obtain ⟨hbefore, hne⟩ := timers.cancelTimer cancelled hid
      have hheld := hc.held id hbefore
      rw [htimer] at hheld
      exact absurd (Option.some.inj hheld).symm hne
  holds := rfl
  undone := nofun
  done := nofun

theorem noneNew_restore (c : Controller Pll) (s : σ) :
    timers.NoneNew s (restore st (Pll.adjustable h) c s) := by
  have hprogram : timers.NoneNew s ((Pll.adjustable h).program c.device .found s).2 :=
    Timers.noneNew_program c.device .found s
  have hreprogram : timers.NoneNew s (reprogram st (Pll.adjustable h) c.device s) := by
    unfold reprogram
    rcases hrun : (Pll.adjustable h).program c.device .found s with ⟨e | u, s₁⟩ <;>
      rw [hrun] at hprogram
    · exact hprogram.trans (Timers.noneNew_report _)
    · exact hprogram
  exact hreprogram.trans (Timers.noneNew_report _)

theorem consistent_step {K : Pll → Prop} {x : Scope σ}
    (hout : ∀ f, x.outside f → ∀ s, timers.NoneNew s (f s)) (a b : Controller Pll × σ)
    (hstep : Step st (Pll.adjustable h) K x a b) (ha : Consistent timers a.1 a.2) :
    Consistent timers b.1 b.2 := by
  cases hstep with
  | noticed n _ => exact ha.quiet (Timers.noneNew_report n) rfl
  | asked signal => exact ha.quiet (fun _ => timers.stopRequested signal) rfl
  | paused ms => exact ha.quiet (fun _ => timers.pause ms) rfl
  | elapsed => exact ha.quiet (fun _ => timers.elapse) rfl
  | refused clock hrun => exact ha.quiet (Timers.noneNew_retune hrun) rfl
  | tried clock _ hrun => exact ha.quiet (Timers.noneNew_retune hrun) rfl
  | moved clock _ _ hrun =>
    exact ha.quiet ((Timers.noneNew_retune hrun).trans (Timers.noneNew_program _ _ _)) rfl
  | looked _ _ hrun => exact ha.quiet (Timers.noneNew_capture hrun) rfl
  | began _ hphase hrun =>
    exact ha.onward (Timers.noneNew_capture hrun) (Phase.isOwing_of_resting hphase) rfl rfl rfl
  | planned _ _ _ _ hphase => exact ha.onward .refl (not_owing_of_underway hphase) rfl rfl rfl
  | entered hphase => exact ha.onward .refl (not_owing_of_underway hphase) rfl rfl rfl
  | undone hphase _ => exact ha.finish (Timers.noneNew_program _ _ _) (isArmed_of_underway hphase)
  | finished hphase => exact ha.finish .refl (isArmed_of_not_owing hphase)
  | @armed c s ms id s' hphase _ hrun =>
    have harm := ha.arm hphase ms (c.progress.generation + 1)
    rw [hrun] at harm
    exact harm
  | retargeted clock _ => exact ⟨ha.held, ha.holds, ha.undone, ha.done⟩
  | taken harmed => exact ha.rollBack harmed
  | @restored c s hphase _ =>
    have harmed : c.isArmed = false := by
      simp only [isArmed, Progress.isArmed, hphase, reduceCtorEq, decide_false]
    exact ha.finish (noneNew_restore c s) harmed
  | outside f hf => exact ha.quiet (hout f hf _) rfl

/-! ## Waiting -/

section
variable {δ : Type} {dev : Adjustable δ σ}

def Awaited (st : Station σ) (r : (Bool × Controller δ) × σ) : Prop :=
  (r.1.1 = true → r.1.2.progress.done = true ∨ (st.stopRequested r.1.2.signal r.2).1 = true) ∧
    (r.1.1 = false → r.1.2.progress.done = false)

theorem awaited_await (hstops : st.KeepsStops) :
    ∀ (ms : Nat) (c : Controller δ) (s : σ), Awaited st (await st dev ms c s) := by
  intro ms
  induction ms with
  | zero =>
    intro c s
    unfold await
    rw [run_bind, run_get]
    dsimp only
    split
    · next hdone => exact ⟨fun _ => .inl hdone, fun hgivenUp => by cases hgivenUp⟩
    · next hdone =>
      exact ⟨fun hseen => .inr (hstops c.signal s hseen), fun _ => Bool.eq_false_iff.mpr hdone⟩
  | succ ms ih =>
    intro c s
    unfold await
    rw [run_bind, run_get]
    dsimp only
    split
    · next hdone => exact ⟨fun _ => .inl hdone, fun hgivenUp => by cases hgivenUp⟩
    · have hpoll : (liftM (st.stopRequested c.signal) : StateT (Controller δ) (StateM σ) Bool) c s =
          (((st.stopRequested c.signal s).1, c), (st.stopRequested c.signal s).2) := rfl
      rw [run_bind, hpoll]
      dsimp only
      split
      · next hseen =>
        exact ⟨fun _ => .inr (hstops c.signal s hseen), fun hgivenUp => by cases hgivenUp⟩
      · rw [run_bind, run_bind]
        exact ih _ _

theorem awaitEnd_run (ms : Nat) (c : Controller δ) (s : σ) :
    awaitEnd st dev ms c s =
      match await st dev ms c s with
      | ((false, c), s) => ((false, c), s)
      | ((true, c), s) =>
        match st.stopRequested c.signal s with
        | (false, s) => ((c.progress.done, c), s)
        | (true, s) =>
          let ((_, c), s) := cancel st dev c s
          ((c.progress.done, c), s) := by
  unfold awaitEnd
  rw [run_bind]
  rcases await st dev ms c s with ⟨⟨_ | _, c₁⟩, s₁⟩
  · rfl
  · have hpoll : (liftM (st.stopRequested c₁.signal) : StateT (Controller δ) (StateM σ) Bool)
        c₁ s₁ = (((st.stopRequested c₁.signal s₁).1, c₁), (st.stopRequested c₁.signal s₁).2) := rfl
    dsimp only
    rw [if_neg (by decide), run_bind, run_get, run_bind, hpoll]
    rcases st.stopRequested c₁.signal s₁ with ⟨_ | _, s₂⟩ <;> rfl

end

theorem awaitEnd_answer (hstops : st.KeepsStops) (hc : c.Settled fun _ => True)
    (hs : Consistent timers c s) (ms : Nat) :
    let dev := Pll.adjustable h
    let ended := awaitEnd st dev ms c s
    ended.1.1 = ended.1.2.progress.done ∧
      ((await st dev ms c s).1.1 = true → ended.1.1 = true) := by
  intro dev
  have hout (f : σ → σ) (hf : (Scope.shut σ).outside f) : ∀ s, timers.NoneNew s (f s) := hf.elim
  have hstep := consistent_step (K := fun _ => True) hout
  have hwait : Reaches (Step st dev (fun _ => True) (.shut σ)) (await st dev ms) c s
      fun _ c _ => c.Settled fun _ => True := reaches_await (lasting_true h) ms hc
  have hs₁ := hwait.keeps hstep hs
  have hc₁ := hwait.post
  have hawaited : Awaited st (await st dev ms c s) := awaited_await hstops ms c s
  rw [awaitEnd_run]
  rcases hrun : await st dev ms c s with ⟨⟨ended, c₁⟩, s₁⟩
  rw [hrun] at hawaited hs₁ hc₁
  obtain ⟨hended, hgivenUp⟩ := hawaited
  cases ended with
  | false => exact ⟨(hgivenUp rfl).symm, nofun⟩
  | true =>
    have hnone : timers.NoneNew s₁ (st.stopRequested c₁.signal s₁).2 :=
      fun _ => timers.stopRequested c₁.signal
    rcases hpoll : st.stopRequested c₁.signal s₁ with ⟨seen, s₂⟩
    rw [hpoll] at hended hnone
    dsimp only
    rw [hpoll]
    cases seen with
    | false =>
      -- no stop is seen now, so none was seen before and the adjustment is done
      have hdone : c₁.progress.done = true := (hended rfl).resolve_right Bool.false_ne_true
      exact ⟨rfl, fun _ => hdone⟩
    | true =>
      have hs₂ : Consistent timers c₁ s₂ := hs₁.quiet hnone rfl
      have hcancel : Reaches (Step st dev (fun _ => True) (.shut σ)) (cancel st dev) c₁ s₂
          fun _ c _ => c.Settled (fun _ => True) ∧
            ((none : Option Nat) = none → c.progress.phase.isResting) :=
        reaches_rollbackArmed (lasting_true h) none rfl hc₁
      have hs₃ := hcancel.keeps hstep hs₂
      have hdone := hs₃.done (Phase.isOwing_of_resting (hcancel.post.2 rfl))
      exact ⟨rfl, fun _ => hdone⟩

/-! ## Runs -/

theorem consistent_start (hs : ∀ id, ¬ timers.pending s id) (p : Pll) (signal : Signal) :
    Consistent timers (.ofDevice p signal) s where
  held id hid := absurd hid (hs id)
  holds := rfl
  undone := nofun
  done _ := rfl

theorem consistent_run {ops : List (Operation σ)}
    (hops : ∀ f, .outside f ∈ ops → ∀ s, timers.NoneNew s (f s)) (p : Pll) (signal : Signal)
    (hs : ∀ id, ¬ timers.pending s id) :
    let left := Operation.leave st (Pll.adjustable h) ops (.ofDevice p signal) s
    left.1.Settled (fun _ => True) ∧ Consistent timers left.1 left.2 := by
  refine Operation.leave_keeps (I := fun a => Consistent timers a.1 a.2) (lasting_true h) ops ?_
    (.inl rfl) (consistent_start hs p signal)
  intro op hop a b hstep
  refine consistent_step ?_ a b hstep
  intro f hf
  cases op with
  | outside g =>
    cases hf
    exact hops f hop
  | _ => exact hf.elim

/-- Between the operations of any run a controller is idle, armed or done. It is
armed exactly while it is not done, and exactly while it holds a timer; no timer
but that one is pending, and none when it is not armed. A wait without a limit
that ends leaves it done, and one with a limit answers whether it is. -/
theorem status_consistent (timers : Timers h st) (hstops : st.KeepsStops) (p : Pll)
    (signal : Signal) (ops : List (Operation σ))
    (hops : ∀ f, .outside f ∈ ops → ∀ s, timers.NoneNew s (f s)) (s : σ)
    (hs : ∀ id, ¬ timers.pending s id) :
    let dev := Pll.adjustable h
    let left := Operation.leave st dev ops (.ofDevice p signal) s
    let status := left.1.progress
    (status.phase = .idle ∨ status.phase = .armed ∨ status.phase = .done) ∧
      (status.phase = .armed ↔ status.done = false) ∧
      (status.phase = .armed ↔ status.timer.isSome) ∧
      (∀ id, timers.pending left.2 id → status.phase = .armed ∧ status.timer = some id) ∧
      ∀ ms,
        let ended := awaitEnd st dev ms left.1 left.2
        ended.1.1 = ended.1.2.progress.done ∧
          ((await st dev ms left.1 left.2).1.1 = true → ended.1.2.progress.done = true) := by
  intro dev left status
  obtain ⟨hc, hconsistent⟩ : left.1.Settled (fun _ => True) ∧ Consistent timers left.1 left.2 :=
    consistent_run hops p signal hs
  have harmed : status.phase = .armed ↔ left.1.isArmed = true := isArmed_iff.symm
  refine ⟨?_, ?_, ?_, ?_, ?_⟩
  · rcases hc with hrest | ⟨hc, -⟩
    · have hphase : status.phase.isResting := hrest
      cases hstatus : status.phase <;> rw [hstatus] at hphase <;>
        first
        | exact .inl rfl
        | exact .inr (.inr rfl)
        | exact absurd hphase Bool.false_ne_true
    · exact .inr (.inl (harmed.mpr hc))
  · constructor
    · exact fun hphase => hconsistent.undone (harmed.mp hphase)
    · intro hundone
      by_contra hphase
      have hrest := hc.resting fun hc => hphase (harmed.mpr hc)
      have hdone := hconsistent.done (Phase.isOwing_of_resting hrest)
      exact absurd (hundone.symm.trans hdone) Bool.false_ne_true
  · rw [harmed, hconsistent.holds]
  · intro id hid
    have hheld := hconsistent.held id hid
    have hholds := hconsistent.holds
    rw [hheld] at hholds
    exact ⟨harmed.mpr hholds.symm, hheld⟩
  · intro ms
    have hanswer := awaitEnd_answer hstops hc hconsistent ms
    exact ⟨hanswer.1, fun hended => hanswer.1.symm.trans (hanswer.2 hended)⟩

theorem status_consistent_link :
    let st := Session.station 0 .ownWorker
    let dev := Pll.adjustable Bench.host
    let left := Operation.leave st dev
      [.adjust .ofMillisecond, .outside fun b => b.setSignal .session true]
      (.ofDevice (.dpMn (.ofPipe 0)) .session) Bench.ofLink
    (Bench.timersOf 0 .ownWorker).pending left.2 1 ∧ left.1.progress.phase = .armed ∧
      left.1.progress.timer = some 1 ∧ left.1.progress.done = false ∧
        (awaitEnd st dev 0 left.1 left.2).1.2.progress.done = true := by
  dsimp only
  have hstops : (Session.station 0 .ownWorker).KeepsStops := fun _ _ hseen => hseen
  have hops : ∀ f, .outside f ∈ [Operation.adjust .ofMillisecond,
      .outside fun b => b.setSignal .session true] →
      ∀ b, (Bench.timersOf 0 .ownWorker).NoneNew b (f b) := by
    intro f hf b id hid
    simp only [List.mem_cons, List.not_mem_nil, or_false, reduceCtorEq, false_or,
      Operation.outside.injEq] at hf
    rw [hf] at hid
    exact hid
  have hnone : ∀ id, ¬ (Bench.timersOf 0 .ownWorker).pending Bench.ofLink id := by
    rintro id ⟨t, ht, -⟩
    have hfresh : Bench.ofLink.worker 0 = .fresh := rfl
    rw [hfresh] at ht
    exact List.not_mem_nil ht
  obtain ⟨-, hundone, -, hheld, hwait⟩ := status_consistent (Bench.timersOf 0 .ownWorker) hstops
    (.dpMn (.ofPipe 0)) .session _ hops Bench.ofLink hnone
  have hpending : (Bench.timersOf 0 .ownWorker).pending (Operation.leave
      (Session.station 0 .ownWorker) (Pll.adjustable Bench.host)
      [.adjust .ofMillisecond, .outside fun b => b.setSignal .session true]
      (.ofDevice (.dpMn (.ofPipe 0)) .session) Bench.ofLink).2 1 := by
    show Bench.PendingInWorker 0 _ 1
    unfold Bench.PendingInWorker
    decide +kernel
  obtain ⟨hphase, htimer⟩ := hheld 1 hpending
  exact ⟨hpending, hphase, htimer, hundone.mp hphase, (hwait 0).2 (by decide +kernel)⟩

end Retune
