import Retune.Proofs.Steps

/-!
# The operations of a controller

Every operation is a path of steps. Between operations a controller is either
at rest or armed, and while it is armed the device is one that was captured.
-/

namespace Retune.Controller

open Relation

variable {δ σ : Type}

/-- Between operations: at rest, or armed on a device of which `K` holds. -/
def Settled (K : δ → Prop) (c : Controller δ) : Prop :=
  c.progress.phase.isResting ∨ c.isArmed ∧ K c.device

section
variable {st : Station σ} {dev : Adjustable δ σ} {K : δ → Prop} {x : Scope σ}
  {c : Controller δ} {s : σ}

theorem isArmed_iff : c.isArmed ↔ c.progress.phase = .armed := by
  unfold isArmed Progress.isArmed
  exact decide_eq_true_iff

theorem Settled.armed (hc : Settled K c) (h : c.isArmed) : K c.device := by
  rcases hc with hc | hc
  · rw [isArmed_iff.mp h] at hc
    exact absurd hc Bool.false_ne_true
  · exact hc.2

theorem Settled.resting (hc : Settled K c) (h : ¬ c.isArmed) : c.progress.phase.isResting :=
  hc.resolve_right fun hc => h hc.1

/-! ## The device -/

theorem capture_run (c : Controller δ) (s : σ) :
    (capture dev).run c s =
      let ((r, d), s) := dev.capture c.device s
      ((r, { c with device := d }), s) := rfl

theorem reaches_onDevice {T : Controller δ × σ → Controller δ × σ → Prop} {α : Type}
    {x : Holding δ σ α} {Q : Except Failure α → δ → σ → Prop}
    (h : Reaches (inDevice T c) x.run c.device s Q) :
    Reaches T (onDevice x).run c s fun r c' s => ∃ d, c' = { c with device := d } ∧ Q r d s :=
  ⟨ReflTransGen.lift (fun a : δ × σ => ({ c with device := a.1 }, a.2)) (fun _ _ h => h) _ _ h.path,
    _, rfl, h.post⟩

variable (st dev) in
theorem reaches_walkOf {m : Move}
    (hK : ∀ {d clock s d' s'}, dev.retune d clock s = (.ok d', s') → K d → K d') (hl : Licensed x K m c.device)
    (hmoves : c.progress.phase.isResting → x.moves) :
    Reaches (Step st dev K x) (walk st dev m).run c s
      fun _ c' _ => ∃ d, c' = { c with device := d } ∧ (K c.device → K d) :=
  reaches_andThen (reaches_current (reaches_onDevice (reaches_move hK hmoves hl c.signal)))

theorem reaches_walk (hK : Lasting dev K) {m : Move} (hl : Licensed x K m c.device)
    (hmoves : c.progress.phase.isResting → x.moves) :
    Reaches (Step st dev K x) (walk st dev m).run c s
      fun _ c' _ => ∃ d, c' = { c with device := d } ∧ (K c.device → K d) :=
  reaches_walkOf st dev hK.retune hl hmoves

/-! ## Rollback -/

theorem takeRollback_run (generation? : Option Nat) (c : Controller δ) (s : σ) :
    takeRollback st generation? c s =
      if c.isArmed && generation?.all (· == c.progress.generation) then
        ((true, c.update .rollBack), disarm st c.progress s)
      else ((false, c), s) := by
  unfold takeRollback disarm
  rw [run_bind, run_get]
  cases c.isArmed with
  | false => rfl
  | true =>
    cases generation?.all (· == c.progress.generation) with
    | false => rfl
    | true => cases c.progress.timer <;> rfl

theorem rollbackArmed_unwanted {generation? : Option Nat} (reason? : Option AdjustmentNotice)
    (h : ¬ (c.isArmed && generation?.all (· == c.progress.generation))) (s : σ) :
    rollbackArmed st dev generation? reason? c s = ((false, c), s) := by
  unfold rollbackArmed
  rw [run_bind, takeRollback_run, if_neg h]
  rfl

theorem rollbackArmed_answer (generation? : Option Nat) (reason? : Option AdjustmentNotice)
    (c : Controller δ) (s : σ) :
    (rollbackArmed st dev generation? reason? c s).1.1 =
      (c.isArmed && generation?.all (· == c.progress.generation)) := by
  by_cases h : c.isArmed && generation?.all (· == c.progress.generation)
  · unfold rollbackArmed
    rw [run_bind, takeRollback_run, if_pos h, h]
    cases reason? <;> rfl
  · rw [rollbackArmed_unwanted reason? h s]
    exact (Bool.eq_false_iff.mpr h).symm

theorem restoreFound_run (c : Controller δ) (s : σ) :
    restoreFound st dev c s = (((), c.update .finish), restore st dev c s) := by
  have hp : (program dev .found).run c s =
      (((dev.program c.device .found s).1, c), (dev.program c.device .found s).2) := rfl
  unfold restoreFound restore reprogram
  rw [run_bind, run_get, run_bind, hp]
  rcases dev.program c.device .found s with ⟨e | u, s'⟩ <;> rfl

theorem reaches_stepBack (hK : Lasting dev K) (hphase : c.progress.phase = .rollingBack)
    (hk : K c.device) :
    Reaches (Step st dev K x) (stepBack st dev) c s
      fun _ c' _ => ∃ d, c' = { c with device := d } ∧ K d := by
  unfold stepBack
  refine reaches_bind (reaches_get (reaches_bind (Reaches.mono (reaches_walk hK (.inr hk) ?_) ?_)))
  · rw [hphase]; exact nofun
  intro r _ s' hwalk
  obtain ⟨d, rfl, hd⟩ := hwalk
  rcases r with e | _ | _
  · exact reaches_lift (.single (.noticed _ rfl)) ⟨d, rfl, hd hk⟩
  · exact reaches_pure ⟨d, rfl, hd hk⟩
  · exact reaches_lift (.single (.noticed _ rfl)) ⟨d, rfl, hd hk⟩

variable (st) in
theorem reaches_rollback (hK : Lasting dev K) (hphase : c.progress.phase = .rollingBack)
    (hk : K c.device) :
    Reaches (Step st dev K x) (rollback st dev) c s fun _ c' _ => c'.progress.phase = .done := by
  unfold rollback
  refine reaches_bind ((reaches_stepBack hK hphase hk).mono ?_)
  intro _ _ s' hback
  obtain ⟨d, rfl, hd⟩ := hback
  exact reaches_of_run (restoreFound_run _ _) (.single (.restored hphase hd)) rfl

theorem reaches_rollbackArmed (hK : Lasting dev K) (generation? : Option Nat)
    {reason? : Option AdjustmentNotice}
    (hreason : reason?.any (fun n => (Notice.adjustment n).isRestored) = false) (hc : Settled K c) :
    Reaches (Step st dev K x) (rollbackArmed st dev generation? reason?) c s
      fun _ c' _ => Settled K c' ∧ (generation? = none → c'.progress.phase.isResting) := by
  have htake : takeRollback st generation? c s = _ := takeRollback_run generation? c s
  unfold rollbackArmed
  split at htake
  · next ht =>
    have harmed : c.isArmed := (Bool.and_eq_true_iff.mp ht).1
    have hk : K c.device := hc.armed harmed
    have hrest (s : σ) := (reaches_rollback (x := x) (s := s) st hK
      (c := c.update .rollBack) rfl hk).mono
        (R := fun _ c' _ => Settled K c' ∧ (generation? = none → c'.progress.phase.isResting))
        fun _ c' _ h => by
          have hdone : c'.progress.phase.isResting := by rw [h]; rfl
          exact ⟨.inl hdone, fun _ => hdone⟩
    refine reaches_bind (reaches_of_run htake (.single (.taken harmed)) ?_)
    cases reason? with
    | none => exact reaches_bind ((hrest _).mono fun _ _ _ h => reaches_pure h)
    | some n =>
      exact reaches_bind (reaches_lift (.single (.noticed _ hreason))
        (reaches_bind ((hrest _).mono fun _ _ _ h => reaches_pure h)))
  · next ht =>
    refine reaches_bind (reaches_of_run htake .refl (reaches_pure ⟨hc, ?_⟩))
    intro hnone
    subst hnone
    exact hc.resting fun h => ht (by simp [h])

/-! ## One adjustment -/

theorem arm_run (delayMs : UInt64) (c : Controller δ) (s : σ) :
    (arm st delayMs).run c s =
      ((.ok ⟨⟩, (c.update .arm).update
          (.withTimer (st.armTimer delayMs (c.progress.generation + 1) s).1)),
        (st.armTimer delayMs (c.progress.generation + 1) s).2) := by
  unfold arm
  rw [run_andThen, run_change]
  simp only [run_andThen, run_current, run_call, run_change]
  rfl

variable (dev) in
theorem reaches_fail {α : Type} {n : AdjustmentNotice} {e : Failure}
    (hn : (Notice.adjustment n).isRestored = false) (hc : c.progress.phase.isOwing = false) :
    Reaches (Step st dev K x) (fail (α := α) st n e).run c s
      fun r c' _ => r = .error e ∧ c'.progress.phase = .done := by
  unfold fail
  refine reaches_andThen (reaches_call (.single (.noticed _ hn)) ?_)
  refine reaches_andThen (reaches_change (.single (.finished hc)) ?_)
  exact reaches_throw ⟨rfl, rfl⟩

theorem reaches_planTarget (a : Adjustment) (hc : c.progress.phase.isUnderway) (hk : K c.device) :
    Reaches (Step st dev K x) (planTarget st dev a).run c s
      (ending (fun _ c' _ => c'.progress.phase = .targetComputed ∧ K c'.device) fun _ _ _ => False) := by
  unfold planTarget
  refine reaches_andThen (reaches_current ?_)
  refine reaches_andThen (reaches_change (.single (Step.planned _ _ _ _ hc)) ?_)
  refine reaches_andThen (reaches_call (.single (.noticed _ rfl)) ?_)
  exact reaches_ok ⟨rfl, hk⟩

theorem reaches_captureTarget (hK : Lasting dev K) (hx : x.captures) (a : Adjustment)
    (hc : c.progress.phase.isResting) :
    Reaches (Step st dev K x) (captureTarget st dev a).run c s
      (ending (fun _ c' _ => c'.progress.phase = .targetComputed ∧ K c'.device)
        fun _ c' _ => c'.progress.phase = .done) := by
  have howing := Phase.isOwing_of_resting hc
  unfold captureTarget
  rcases hcap : dev.capture c.device s with ⟨⟨r, d⟩, s'⟩
  have hrun : (capture dev).outcome.run c s = ((.ok r, { c with device := d }), s') := by
    rw [run_outcome, capture_run, hcap]
  cases r with
  | error e =>
    refine reaches_andThen (reaches_of_run hrun (.single (.looked hx hc hcap)) ?_)
    refine Reaches.mono (reaches_fail dev rfl howing) ?_
    intro _ c' s' hfail
    obtain ⟨rfl, hdone⟩ := hfail
    exact hdone
  | ok u =>
    refine reaches_via (y := (planTarget st dev a).run) ?_ (.single (.began hx hc hcap)) ?_
    · rw [run_andThen, hrun]
      rfl
    · refine Reaches.mono (reaches_planTarget a rfl (hK.capture hcap)) ?_
      intro r c' s' hplan
      cases r with
      | error e => exact hplan.elim
      | ok targets => exact hplan

theorem reaches_moveTarget (hK : Lasting dev K) (a : Adjustment) (found target : Float)
    (hc : c.progress.phase = .targetComputed) (hk : K c.device) :
    Reaches (Step st dev K x) (moveTarget st dev a found target).run c s
      fun _ c' _ => Settled K c' := by
  have hdone {c : Controller δ} (h : c.progress.phase = .done) : Settled K c := by
    left; rw [h]; rfl
  unfold moveTarget
  refine reaches_andThen (reaches_change (.single (.entered (by rw [hc]; rfl))) ?_)
  refine reaches_andThen (reaches_outcome (Reaches.mono (reaches_walk hK (.inr hk) nofun) ?_))
  intro r _ s₁ hwalk
  obtain ⟨d, rfl, hd⟩ := hwalk
  rcases r with e | _ | _
  · exact Reaches.mono (reaches_fail dev rfl rfl) fun _ _ _ h => hdone h.2
  · refine reaches_andThen (reaches_current ?_)
    refine reaches_andThen (reaches_calls (fun n hn _ => .noticed n (hK.listing _ n hn)) fun s₂ => ?_)
    simp only [ending]
    split
    · exact reaches_of_run (arm_run _ _ _) (.single (.armed _ rfl (hd hk) rfl)) (.inr ⟨rfl, hd hk⟩)
    · exact reaches_change (.single (.finished rfl)) (hdone rfl)
  · have hundone : Step st dev K x _ _ :=
      .undone (c := { c.update (.enter .stepping) with device := d }) (s := s₁) rfl (hd hk)
    let restored : Holding (Controller δ) σ Unit :=
      MonadExcept.ofExcept (dev.program d .found s₁).1
    refine reaches_via (y := restored.run) ?_ (.single hundone) ?_
    · rw [run_andThen, run_outcome]
      rfl
    · exact reaches_ofExcept (hdone rfl)

theorem reaches_adjust (hK : Lasting dev K) (hx : x.captures) (a : Adjustment)
    (hc : Settled K c) :
    Reaches (Step st dev K x) (adjust st dev a).run c s fun _ c' _ => Settled K c' := by
  have hdone {c : Controller δ} (h : c.progress.phase = .done) : Settled K c := by
    left; rw [h]; rfl
  unfold adjust
  dsimp only
  split
  · exact reaches_andThen (reaches_call (.single (.noticed _ rfl)) (reaches_andThen (reaches_throw hc)))
  · refine reaches_andThen (reaches_call (.single (.noticed _ rfl)) ?_)
    refine reaches_andThen (reaches_ignore (reaches_inner
      (Reaches.mono (reaches_rollbackArmed hK none rfl hc) ?_)))
    intro _ c₁ s₁ hrolled
    obtain ⟨-, hrest⟩ := hrolled
    refine reaches_andThen ((reaches_captureTarget hK hx a (hrest rfl)).mono ?_)
    intro r c₂ s₂ hcaptured
    cases r with
    | error e => exact hdone hcaptured
    | ok targets =>
      obtain ⟨hphase, hk⟩ := hcaptured
      simp only [ending]
      split
      · exact reaches_andThen (reaches_call (.single (.noticed _ rfl))
          (reaches_change (.single (.finished (by rw [hphase]; rfl))) (hdone rfl)))
      · exact reaches_moveTarget hK a targets.1 targets.2 hphase hk

/-! ## Moving and asking -/

theorem reaches_clock (hK : Lasting dev K) (hx : x.captures) (hc : Settled K c) :
    Reaches (Step st dev K x) (clock dev).run c s
      (ending (fun _ c' _ => Settled K c' ∧ K c'.device ∧ c'.isArmed = c.isArmed)
        fun _ c' _ => Settled K c') := by
  unfold clock
  refine reaches_andThen (reaches_current ?_)
  simp only [ending]
  split
  · next harmed => exact reaches_ok ⟨hc, hc.armed harmed, rfl⟩
  · next harmed =>
    rcases hcap : dev.capture c.device s with ⟨⟨r, d⟩, s'⟩
    have hrun : (capture dev).run c s = ((r, { c with device := d }), s') := by
      rw [capture_run, hcap]
    have hrest : c.progress.phase.isResting := hc.resting harmed
    refine reaches_andThen (reaches_of_run hrun (.single (.looked hx hrest hcap)) ?_)
    cases r with
    | error e => exact .inl hrest
    | ok u => exact reaches_andThen (reaches_current (reaches_ok ⟨.inl hrest, hK.capture hcap, rfl⟩))

theorem requireFrequency_path (clock : Float) (what : String) (s : σ) :
    ReflTransGen (Step st dev K x) (c, s) (c, ((st.requireFrequency clock what).run s).2) := by
  rw [Environment.requireFrequency_run]
  split
  · exact .refl
  · exact .single (.noticed (.pll _) rfl)

theorem requireShift_path (shift : Float) (s : σ) :
    ReflTransGen (Step st dev K x) (c, s) (c, ((st.requireShift shift).run s).2) := by
  rw [Environment.requireShift_run]
  split
  · exact .single (.noticed (.pll _) rfl)
  · exact .refl

theorem Settled.walked {d : δ} (hc : Settled K c) (hd : K c.device → K d) :
    Settled K { c with device := d } :=
  hc.imp_right fun h => ⟨h.1, hd h.2⟩

theorem reaches_moveFrom (hK : Lasting dev K) (hmoves : x.moves) {armed : Bool}
    (current target shift : Float) (waitMs : UInt64) (hc : Settled K c) (hk : K c.device)
    (harmed : armed = true → c.isArmed) :
    Reaches (Step st dev K x) (moveFrom st dev armed current target shift waitMs).run c s
      fun _ c' _ => Settled K c' := by
  unfold moveFrom
  refine reaches_andThen (Reaches.mono (reaches_walk hK (.inr hk) fun _ => hmoves) ?_)
  intro r c₁ s₁ hwalk
  obtain ⟨d, rfl, hd⟩ := hwalk
  have hc₁ : Settled K { c with device := d } := hc.walked hd
  cases r with
  | error e => exact hc₁
  | ok r =>
    simp only [ending]
    split
    · next h =>
      have harmed₁ : Controller.isArmed { c with device := d } := harmed h
      exact reaches_andThen (reaches_change (.single (.retargeted _ harmed₁)) (reaches_ok hc₁))
    · exact reaches_ok hc₁

theorem reaches_moveTo (hK : Lasting dev K) (hx : x.captures) (hmoves : x.moves)
    (target shift : Float) (waitMs : UInt64) (hc : Settled K c) :
    Reaches (Step st dev K x) (moveTo st dev target shift waitMs).run c s
      fun _ c' _ => Settled K c' := by
  unfold moveTo
  refine reaches_andThen (reaches_try (requireFrequency_path _ _ _) ?_)
  rcases ((st.requireFrequency target "target PLL clock").run s).1 with e | u
  · exact hc
  refine reaches_andThen (reaches_try (requireShift_path _ _) ?_)
  rcases ((st.requireShift shift).run _).1 with e | u
  · exact hc
  refine reaches_andThen (reaches_current (reaches_andThen ((reaches_clock hK hx hc).mono ?_)))
  intro r c₁ s₁ hclock
  cases r with
  | error e => exact hclock
  | ok current =>
    obtain ⟨hc₁, hk, harmed⟩ := hclock
    exact reaches_moveFrom hK hmoves current target shift waitMs hc₁ hk fun h => harmed.trans h

/-! ## Waiting -/

theorem reaches_cancel (hK : Lasting dev K) (hc : Settled K c) :
    Reaches (Step st dev K x) (cancel st dev) c s fun _ c' _ => Settled K c' :=
  (reaches_rollbackArmed hK none rfl hc).mono fun _ _ _ h => h.1

theorem reaches_expire (hK : Lasting dev K) (generation : Nat) (hc : Settled K c) :
    Reaches (Step st dev K x) (expire st dev generation) c s fun _ c' _ => Settled K c' :=
  reaches_discard ((reaches_rollbackArmed hK (some generation) rfl hc).mono
    fun _ _ _ h => h.1)

theorem reaches_expiries (hK : Lasting dev K) :
    ∀ (generations : List Nat) {c : Controller δ} {s : σ}, Settled K c →
      Reaches (Step st dev K x) (generations.forM (expire st dev)) c s fun _ c' _ => Settled K c'
  | [], _, _, hc => reaches_pure hc
  | g :: gs, c, s, hc => by
    show Reaches _ (expire st dev g >>= fun _ => gs.forM (expire st dev)) c s _
    exact reaches_bind ((reaches_expire hK g hc).mono fun _ _ _ h => reaches_expiries hK gs h)

theorem reaches_await (hK : Lasting dev K) :
    ∀ (ms : Nat) {c : Controller δ} {s : σ}, Settled K c →
      Reaches (Step st dev K x) (await st dev ms) c s fun _ c' _ => Settled K c'
  | 0, c, s, hc => by
    unfold await
    refine reaches_bind (reaches_get ?_)
    split
    · exact reaches_pure hc
    · exact reaches_lift (.single (.asked _)) hc
  | ms + 1, c, s, hc => by
    unfold await
    refine reaches_bind (reaches_get ?_)
    split
    · exact reaches_pure hc
    · refine reaches_bind (reaches_lift (.single (.asked _)) ?_)
      split
      · exact reaches_pure hc
      · refine reaches_bind (reaches_lift (.single .elapsed) ?_)
        exact reaches_bind ((reaches_expiries hK _ hc).mono fun _ _ _ h => reaches_await hK ms h)

theorem reaches_awaitEnd (hK : Lasting dev K) (ms : Nat) (hc : Settled K c) :
    Reaches (Step st dev K x) (awaitEnd st dev ms) c s fun _ c' _ => Settled K c' := by
  unfold awaitEnd
  refine reaches_bind ((reaches_await hK ms hc).mono ?_)
  intro _ c₁ s₁ hc₁
  split
  · exact reaches_pure hc₁
  · refine reaches_bind (reaches_get (reaches_bind (reaches_lift (.single (.asked _)) ?_)))
    split
    · refine reaches_bind (reaches_discard ((reaches_cancel hK hc₁).mono ?_))
      intro _ c₂ s₂ hc₂
      exact reaches_bind (reaches_get (reaches_pure hc₂))
    · exact reaches_bind (reaches_get (reaches_pure hc₁))

end

end Retune.Controller

namespace Retune.Operation

open Controller

variable {δ σ : Type} {st : Station σ} {dev : Adjustable δ σ} {K : δ → Prop} {c : Controller δ}
  {s : σ}

variable (st) in
/-- Every operation is a path of steps from one settled state to the next. -/
theorem reaches_perform (hK : Lasting dev K) (op : Operation σ) (hc : Settled K c) :
    Reaches (Step st dev K op.scope) (op.perform st dev) c s fun _ c' _ => Settled K c' := by
  cases op with
  | adjust a => exact reaches_discard (reaches_adjust hK trivial a hc)
  | moveTo target shift waitMs =>
    exact reaches_discard (reaches_moveTo hK trivial trivial target shift waitMs hc)
  | walk m =>
    have hl : Licensed (Operation.walk m : Operation σ).scope K m c.device := by
      unfold Licensed
      split
      · next hm => exact .inl hm
      · next hm => exact Bool.eq_false_iff.mpr hm
    refine reaches_discard ((reaches_walk hK hl fun _ => trivial).mono ?_)
    intro _ _ s' hwalk
    obtain ⟨d, rfl, hd⟩ := hwalk
    exact hc.walked hd
  | clock =>
    refine reaches_discard ((reaches_clock hK trivial hc).mono ?_)
    intro r c' s' hclock
    cases r with
    | error e => exact hclock
    | ok clock => exact hclock.1
  | cancel => exact reaches_discard (reaches_cancel hK hc)
  | expire generation => exact reaches_expire hK generation hc
  | awaitEnd ms => exact reaches_discard (reaches_awaitEnd hK ms hc)
  | outside f => exact reaches_lift (.single (.outside f rfl)) hc

theorem leave_append : ∀ (ops ops' : List (Operation σ)) (c : Controller δ) (s : σ),
    leave st dev (ops ++ ops') c s =
      leave st dev ops' (leave st dev ops c s).1 (leave st dev ops c s).2
  | [], _, _, _ => rfl
  | op :: ops, ops', c, s => leave_append ops ops' (op.perform st dev c s).1.2 (op.perform st dev c s).2

theorem leave_keeps {I : Controller δ × σ → Prop} (hK : Lasting dev K) :
    ∀ (ops : List (Operation σ)) {c : Controller δ} {s : σ},
      (∀ op ∈ ops, ∀ a b, Step st dev K op.scope a b → I a → I b) → Settled K c → I (c, s) →
        Settled K (leave st dev ops c s).1 ∧ I (leave st dev ops c s)
  | [], _, _, _, hc, hI => ⟨hc, hI⟩
  | op :: ops, c, s, hstep, hc, hI => by
    have h := reaches_perform (s := s) st hK op hc
    exact leave_keeps hK ops (fun o ho => hstep o (List.mem_cons_of_mem _ ho)) h.post
      (h.keeps (hstep op List.mem_cons_self) hI)

end Retune.Operation
