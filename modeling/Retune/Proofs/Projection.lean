import Retune.Proofs.Record

/-!
# Projecting runs

When everything a station and a device do in one kind of world projects onto
what they do in another, so does every operation. A recorded run projects onto
the run itself.
-/

namespace Retune

section
variable {γ ρ σ α β : Type}

/-- What `x'` does in a world is, after `f`, what `x` does there. -/
def Carries (f : ρ → σ) (x' : StateM ρ α) (x : StateM σ α) : Prop :=
  ∀ r, x (f r) = ((x' r).1, f (x' r).2)

/-- The same of programs that hold a value. -/
def Mirrors (f : ρ → σ) (x' : StateT γ (StateM ρ) α) (x : StateT γ (StateM σ) α) : Prop :=
  ∀ c, Carries f (x' c) (x c)

variable {f : ρ → σ}

/-! ## Programs -/

theorem mirrors_pure (a : α) : 
    Mirrors f (pure a : StateT γ (StateM ρ) α) (pure a : StateT γ (StateM σ) α) := fun _ _ => rfl

theorem mirrors_get :
    Mirrors f (get : StateT γ (StateM ρ) γ) (get : StateT γ (StateM σ) γ) := fun _ _ => rfl

theorem mirrors_modify (g : γ → γ) :
    Mirrors f (modify g : StateT γ (StateM ρ) PUnit) (modify g : StateT γ (StateM σ) PUnit) :=
  fun _ _ => rfl

theorem mirrors_lift {x' : StateM ρ α} {x : StateM σ α} (h : Carries f x' x) :
    Mirrors f (liftM x' : StateT γ (StateM ρ) α) (liftM x : StateT γ (StateM σ) α) := by
  intro c r
  show (((x (f r)).1, c), (x (f r)).2) = _
  rw [h r]
  rfl

theorem mirrors_bind {x' : StateT γ (StateM ρ) α} {x : StateT γ (StateM σ) α}
    {g' : α → StateT γ (StateM ρ) β} {g : α → StateT γ (StateM σ) β} (hx : Mirrors f x' x)
    (hg : ∀ a, Mirrors f (g' a) (g a)) : Mirrors f (x' >>= g') (x >>= g) := by
  intro c r
  rw [run_bind, run_bind, hx c r]
  exact hg _ _ _

theorem mirrors_discard {x' : StateT γ (StateM ρ) α} {x : StateT γ (StateM σ) α}
    (hx : Mirrors f x' x) : Mirrors f (discard x') (discard x) := by
  intro c r
  show (((), (x c (f r)).1.2), (x c (f r)).2) = _
  rw [hx c r]
  rfl

/-! ## Programs that may fail -/

theorem carries_then {x' : Fallible ρ α} {x : Fallible σ α} {g' : α → Fallible ρ β}
    {g : α → Fallible σ β} (hx : Carries f x'.run x.run)
    (hg : ∀ a, Carries f (g' a).run (g a).run) : Carries f (x' >>= g').run (x >>= g).run := by
  intro r
  rw [run_then, run_then, hx r]
  rcases x'.run r with ⟨e | a, r'⟩
  · rfl
  · exact hg a r'

theorem mirrors_ok (a : α) :
    Mirrors f (pure a : Holding γ ρ α).run (pure a : Holding γ σ α).run := fun _ _ => rfl

theorem mirrors_throw (e : Failure) :
    Mirrors f (throw e : Holding γ ρ α).run (throw e : Holding γ σ α).run := fun _ _ => rfl

theorem mirrors_ofExcept (r : Except Failure α) :
    Mirrors f (MonadExcept.ofExcept r : Holding γ ρ α).run
      (MonadExcept.ofExcept r : Holding γ σ α).run := by
  cases r <;> exact fun _ _ => rfl

theorem mirrors_current :
    Mirrors f (get : Holding γ ρ γ).run (get : Holding γ σ γ).run := fun _ _ => rfl

theorem mirrors_replace (c : γ) :
    Mirrors f (set c : Holding γ ρ PUnit).run (set c : Holding γ σ PUnit).run := fun _ _ => rfl

theorem mirrors_change (g : γ → γ) :
    Mirrors f (modify g : Holding γ ρ PUnit).run (modify g : Holding γ σ PUnit).run :=
  fun _ _ => rfl

theorem mirrors_andThen {x' : Holding γ ρ α} {x : Holding γ σ α} {g' : α → Holding γ ρ β}
    {g : α → Holding γ σ β} (hx : Mirrors f x'.run x.run)
    (hg : ∀ a, Mirrors f (g' a).run (g a).run) : Mirrors f (x' >>= g').run (x >>= g).run := by
  intro c r
  rw [run_andThen, run_andThen, hx c r]
  rcases x'.run c r with ⟨⟨e | a, c'⟩, r'⟩
  · rfl
  · exact hg a c' r'

theorem mirrors_call {x' : StateM ρ α} {x : StateM σ α} (h : Carries f x' x) :
    Mirrors f (liftM x' : Holding γ ρ α).run (liftM x : Holding γ σ α).run := by
  intro c r
  rw [run_call, run_call, h r]

theorem mirrors_try {x' : Fallible ρ α} {x : Fallible σ α} (h : Carries f x'.run x.run) :
    Mirrors f (liftM x' : Holding γ ρ α).run (liftM x : Holding γ σ α).run := by
  intro c r
  rw [run_try, run_try, h r]

theorem mirrors_inner {x' : StateT γ (StateM ρ) α} {x : StateT γ (StateM σ) α}
    (h : Mirrors f x' x) :
    Mirrors f (liftM x' : Holding γ ρ α).run (liftM x : Holding γ σ α).run := by
  intro c r
  show ((Except.ok (x c (f r)).1.1, (x c (f r)).1.2), (x c (f r)).2) = _
  rw [h c r]
  rfl

theorem mirrors_outcome {x' : Holding γ ρ α} {x : Holding γ σ α} (h : Mirrors f x'.run x.run) :
    Mirrors f x'.outcome.run x.outcome.run := by
  intro c r
  rw [run_outcome, run_outcome, h c r]

theorem mirrors_ignore {x' : Holding γ ρ α} {x : Holding γ σ α} (h : Mirrors f x'.run x.run) :
    Mirrors f (discard x').run (discard x).run := by
  intro c r
  rw [run_discard, run_discard, h c r]
  rcases x'.run c r with ⟨⟨e | a, c'⟩, r'⟩ <;> rfl

theorem mirrors_calls {ν : Type} {g' : ν → StateM ρ PUnit} {g : ν → StateM σ PUnit}
    (h : ∀ n, Carries f (g' n) (g n)) : ∀ l : List ν,
      Mirrors f (l.forM fun n => liftM (g' n) : Holding γ ρ PUnit).run
        (l.forM fun n => liftM (g n) : Holding γ σ PUnit).run
  | [] => mirrors_ok _
  | n :: l => mirrors_andThen (mirrors_call (h n)) fun _ => mirrors_calls h l

end

/-! ## Stations and devices -/

/-- A station and a device act in the worlds of `ρ` as they do in the image. -/
structure Faithful {δ ρ σ : Type} (f : ρ → σ) (st' : Station ρ) (dev' : Adjustable δ ρ)
    (st : Station σ) (dev : Adjustable δ σ) : Prop where
  stopRequested : ∀ signal, Carries f (st'.stopRequested signal) (st.stopRequested signal)
  report : ∀ n, Carries f (st'.report n) (st.report n)
  pause : ∀ ms, Carries f (st'.pause ms) (st.pause ms)
  armTimer : ∀ ms generation, Carries f (st'.armTimer ms generation) (st.armTimer ms generation)
  cancelTimer : ∀ id, Carries f (st'.cancelTimer id) (st.cancelTimer id)
  elapse : Carries f st'.elapse st.elapse
  retune : ∀ d clock, Carries f (dev'.retune d clock).run (dev.retune d clock).run
  program : ∀ d v, Carries f (dev'.program d v).run (dev.program d v).run
  capture : Mirrors f dev'.capture.run dev.capture.run
  clock : dev'.clock = dev.clock
  listing : dev'.listing = dev.listing

namespace Faithful
variable {δ ρ σ α : Type} {f : ρ → σ} {st' : Station ρ} {dev' : Adjustable δ ρ} {st : Station σ}
  {dev : Adjustable δ σ} (hf : Faithful f st' dev' st dev)
include hf

theorem requireFrequency (x : Float) (what : String) :
    Carries f (st'.requireFrequency x what).run (st.requireFrequency x what).run := by
  intro r
  rw [Environment.requireFrequency_run, Environment.requireFrequency_run]
  split
  · rfl
  · rw [hf.report _ r]

theorem requireShift (shift : Float) :
    Carries f (st'.requireShift shift).run (st.requireShift shift).run := by
  intro r
  rw [Environment.requireShift_run, Environment.requireShift_run]
  split
  · rw [hf.report _ r]
  · rfl

theorem reportingFailure (n : Failure → Notice) {x' : Fallible ρ α} {x : Fallible σ α}
    (h : Carries f x'.run x.run) :
    Carries f (st'.reportingFailure n x').run (st.reportingFailure n x).run := by
  intro r
  rw [Environment.reportingFailure_run, Environment.reportingFailure_run, h r]
  rcases x'.run r with ⟨e | a, r'⟩
  · show (Except.error e, (st.report (n e) (f r')).2) = _
    rw [hf.report _ r']
  · rfl

/-! ## Walks -/

theorem check (m : Move) :
    Carries f (m.check st'.toEnvironment).run (m.check st.toEnvironment).run :=
  carries_then (hf.requireFrequency _ _) fun _ =>
    carries_then (hf.requireFrequency _ _) fun _ => hf.requireShift _

theorem round (m : Move) (i : Nat) (steps : UInt64) (clock : Float) :
    Mirrors f (m.round st'.toEnvironment dev'.toWalkable i steps clock).run
      (m.round st.toEnvironment dev.toWalkable i steps clock).run := by
  unfold Move.round
  refine mirrors_andThen (mirrors_call (hf.report _)) fun _ => ?_
  refine mirrors_andThen mirrors_current fun d => ?_
  refine mirrors_andThen (mirrors_try (hf.reportingFailure _ (hf.retune d clock))) fun d => ?_
  refine mirrors_andThen (mirrors_replace d) fun _ => ?_
  split
  · exact mirrors_try (hf.reportingFailure _ (hf.program d .proposed))
  · exact mirrors_ok _

theorem rounds (m : Move) (signal : Signal) (plan : StepPlan Float) :
    ∀ (left : Nat) (clock : Float),
      Mirrors f (m.rounds st'.toEnvironment dev'.toWalkable signal plan left clock).run
        (m.rounds st.toEnvironment dev.toWalkable signal plan left clock).run
  | 0, _ => mirrors_ok _
  | left + 1, clock => by
    unfold Move.rounds
    dsimp only
    generalize (if left = 0 then m.target else clock + plan.size) = next
    refine mirrors_andThen (mirrors_call (hf.stopRequested signal)) fun stop => ?_
    cases stop with
    | true => exact mirrors_andThen (mirrors_call (hf.report _)) fun _ => mirrors_ok _
    | false =>
      refine mirrors_andThen (hf.round m _ _ _) fun _ => ?_
      split
      · exact mirrors_andThen (mirrors_call (hf.pause _)) fun _ => rounds m signal plan left _
      · exact rounds m signal plan left _

theorem move (m : Move) (signal : Signal) :
    Mirrors f (m.walk st'.toEnvironment dev'.toWalkable signal).run
      (m.walk st.toEnvironment dev.toWalkable signal).run := by
  unfold Move.walk
  dsimp only
  refine mirrors_andThen (mirrors_try (hf.check m)) fun _ => ?_
  split
  · exact mirrors_andThen (mirrors_call (hf.report _)) fun _ =>
      mirrors_andThen (mirrors_call (hf.report _)) fun _ => hf.rounds m signal _ _ _
  · exact mirrors_andThen (mirrors_call (hf.report _)) fun _ => hf.rounds m signal _ _ _

omit hf in
theorem onDevice {x' : Holding δ ρ α} {x : Holding δ σ α} (h : Mirrors f x'.run x.run) :
    Mirrors f (Controller.onDevice x').run (Controller.onDevice x).run := by
  intro c r
  have hx : x c.device (f r) = ((x' c.device r).1, f (x' c.device r).2) := h c.device r
  show (((x c.device (f r)).1.1, _), (x c.device (f r)).2) = _
  rw [hx]
  rfl

theorem walk (m : Move) :
    Mirrors f (Controller.walk st' dev' m).run (Controller.walk st dev m).run :=
  mirrors_andThen mirrors_current fun c => onDevice (hf.move m c.signal)

theorem programVersion (v : Version) :
    Mirrors f (Controller.program dev' v).run (Controller.program dev v).run :=
  mirrors_andThen mirrors_current fun c => mirrors_try (hf.program c.device v)

/-! ## Rollback -/

theorem takeRollback (generation? : Option Nat) :
    Mirrors f (Controller.takeRollback (δ := δ) st' generation?)
      (Controller.takeRollback st generation?) := by
  intro c r
  rw [Controller.takeRollback_run, Controller.takeRollback_run]
  split
  · unfold Controller.disarm
    cases c.progress.timer with
    | none => rfl
    | some id =>
      show ((true, c.update .rollBack), (st.cancelTimer id (f r)).2) = _
      rw [hf.cancelTimer id r]
  · rfl

theorem rollback : Mirrors f (Controller.rollback st' dev') (Controller.rollback st dev) := by
  have hback : Mirrors f (Controller.stepBack st' dev') (Controller.stepBack st dev) := by
    refine mirrors_bind mirrors_get fun c => mirrors_bind (hf.walk _) fun ending => ?_
    rcases ending with e | _ | _
    · exact mirrors_lift (hf.report _)
    · exact mirrors_pure _
    · exact mirrors_lift (hf.report _)
  refine mirrors_bind hback fun _ => ?_
  refine mirrors_bind mirrors_get fun c => mirrors_bind (hf.programVersion .found) fun ending => ?_
  have hrest := mirrors_bind (γ := Controller δ)
    (mirrors_lift (hf.report (AdjustmentNotice.restored c.progress.foundClock))) fun _ =>
      mirrors_modify (f := f) (Controller.update (δ := δ) .finish)
  cases ending with
  | error e => exact mirrors_bind (mirrors_lift (hf.report _)) fun _ => hrest
  | ok u => exact hrest

theorem rollbackArmed (generation? : Option Nat) (reason? : Option AdjustmentNotice) :
    Mirrors f (Controller.rollbackArmed st' dev' generation? reason?)
      (Controller.rollbackArmed st dev generation? reason?) := by
  have hrest := mirrors_bind hf.rollback fun _ => mirrors_pure (γ := Controller δ) (f := f) true
  refine mirrors_bind (hf.takeRollback generation?) fun taken => ?_
  cases taken with
  | false => exact mirrors_pure _
  | true =>
    cases reason? with
    | none => exact hrest
    | some reason => exact mirrors_bind (mirrors_lift (hf.report _)) fun _ => hrest

theorem expire (generation : Nat) :
    Mirrors f (Controller.expire st' dev' generation) (Controller.expire st dev generation) :=
  mirrors_discard (hf.rollbackArmed _ _)

/-! ## Adjusting -/

theorem fail (n : AdjustmentNotice) (e : Failure) :
    Mirrors f (Controller.fail (δ := δ) (α := α) st' n e).run (Controller.fail st n e).run :=
  mirrors_andThen (mirrors_call (hf.report _)) fun _ =>
    mirrors_andThen (mirrors_change _) fun _ => mirrors_throw e

theorem arm (delayMs : UInt64) :
    Mirrors f (Controller.arm (δ := δ) st' delayMs).run (Controller.arm st delayMs).run :=
  mirrors_andThen (mirrors_change _) fun _ => mirrors_andThen mirrors_current fun _ =>
    mirrors_andThen (mirrors_call (hf.armTimer _ _)) fun _ => mirrors_change _

theorem captureTarget (a : Adjustment) :
    Mirrors f (Controller.captureTarget st' dev' a).run (Controller.captureTarget st dev a).run := by
  have hplan : Mirrors f (Controller.planTarget st' dev' a).run
      (Controller.planTarget st dev a).run := by
    unfold Controller.planTarget
    rw [hf.clock]
    exact mirrors_andThen mirrors_current fun _ => mirrors_andThen (mirrors_change _) fun _ =>
      mirrors_andThen (mirrors_call (hf.report _)) fun _ => mirrors_ok _
  refine mirrors_andThen (mirrors_outcome (onDevice hf.capture)) fun r => ?_
  cases r with
  | error e => exact hf.fail _ e
  | ok u => exact mirrors_andThen (mirrors_change _) fun _ => hplan

theorem moveTarget (a : Adjustment) (found target : Float) :
    Mirrors f (Controller.moveTarget st' dev' a found target).run
      (Controller.moveTarget st dev a found target).run := by
  unfold Controller.moveTarget
  rw [hf.listing]
  refine mirrors_andThen (mirrors_change _) fun _ => ?_
  refine mirrors_andThen (mirrors_outcome (hf.walk _)) fun r => ?_
  rcases r with e | _ | _
  · exact hf.fail _ e
  · refine mirrors_andThen mirrors_current fun c => ?_
    refine mirrors_andThen (mirrors_calls hf.report _) fun _ => ?_
    split
    · exact hf.arm _
    · exact mirrors_change _
  · exact mirrors_andThen (mirrors_outcome (hf.programVersion .found)) fun _ =>
      mirrors_andThen (mirrors_change _) fun _ => mirrors_ofExcept _

theorem adjust (a : Adjustment) :
    Mirrors f (Controller.adjust st' dev' a).run (Controller.adjust st dev a).run := by
  unfold Controller.adjust
  dsimp only
  split
  · refine mirrors_andThen (mirrors_call (hf.report _)) fun _ => ?_
    exact fun _ _ => rfl
  · refine mirrors_andThen (mirrors_call (hf.report _)) fun _ => ?_
    refine mirrors_andThen (mirrors_ignore (mirrors_inner (hf.rollbackArmed _ _))) fun _ => ?_
    refine mirrors_andThen (hf.captureTarget a) fun found => ?_
    split
    · exact mirrors_andThen (mirrors_call (hf.report _)) fun _ => mirrors_change _
    · exact hf.moveTarget a _ _

/-! ## Moving, asking and waiting -/

theorem askClock : Mirrors f (Controller.clock dev').run (Controller.clock dev).run := by
  unfold Controller.clock
  rw [hf.clock]
  refine mirrors_andThen mirrors_current fun c => ?_
  split
  · exact mirrors_ok _
  · exact mirrors_andThen (onDevice hf.capture) fun _ =>
      mirrors_andThen mirrors_current fun _ => mirrors_ok _

theorem moveFrom (armed : Bool) (current target shift : Float) (waitMs : UInt64) :
    Mirrors f (Controller.moveFrom st' dev' armed current target shift waitMs).run
      (Controller.moveFrom st dev armed current target shift waitMs).run := by
  unfold Controller.moveFrom
  rw [hf.clock]
  refine mirrors_andThen (hf.walk _) fun ending => ?_
  dsimp only
  split
  · exact mirrors_andThen (mirrors_change _) fun _ => mirrors_ok _
  · exact mirrors_ok _

theorem moveTo (target shift : Float) (waitMs : UInt64) :
    Mirrors f (Controller.moveTo st' dev' target shift waitMs).run
      (Controller.moveTo st dev target shift waitMs).run := by
  unfold Controller.moveTo
  refine mirrors_andThen (mirrors_try (hf.requireFrequency _ _)) fun _ => ?_
  refine mirrors_andThen (mirrors_try (hf.requireShift _)) fun _ => ?_
  refine mirrors_andThen mirrors_current fun c => ?_
  refine mirrors_andThen hf.askClock fun current => ?_
  exact hf.moveFrom c.isArmed current target shift waitMs

theorem expiries : ∀ generations : List Nat,
    Mirrors f (generations.forM (Controller.expire st' dev'))
      (generations.forM (Controller.expire st dev))
  | [] => mirrors_pure _
  | g :: gs => mirrors_bind (hf.expire g) fun _ => expiries gs

theorem await : ∀ ms, Mirrors f (Controller.await st' dev' ms) (Controller.await st dev ms)
  | 0 => by
    unfold Controller.await
    refine mirrors_bind mirrors_get fun c => ?_
    split
    · exact mirrors_pure _
    · exact mirrors_lift (hf.stopRequested _)
  | ms + 1 => by
    unfold Controller.await
    refine mirrors_bind mirrors_get fun c => ?_
    split
    · exact mirrors_pure _
    · refine mirrors_bind (mirrors_lift (hf.stopRequested _)) fun stop => ?_
      cases stop with
      | true => exact mirrors_pure _
      | false =>
        exact mirrors_bind (mirrors_lift hf.elapse) fun gs =>
          mirrors_bind (hf.expiries gs) fun _ => await ms

theorem awaitEnd (ms : Nat) :
    Mirrors f (Controller.awaitEnd st' dev' ms) (Controller.awaitEnd st dev ms) := by
  have hdone := mirrors_bind (γ := Controller δ) (f := f) mirrors_get fun c =>
    mirrors_pure c.progress.done
  refine mirrors_bind (hf.await ms) fun ended => ?_
  cases ended with
  | false => exact mirrors_pure _
  | true =>
    refine mirrors_bind mirrors_get fun c =>
      mirrors_bind (mirrors_lift (hf.stopRequested _)) fun stop => ?_
    cases stop with
    | false => exact hdone
    | true => exact mirrors_bind (mirrors_discard (hf.rollbackArmed _ _)) fun _ => hdone

theorem perform {τ : Type} {lift' : (τ → τ) → ρ → ρ} {lift : (τ → τ) → σ → σ}
    (hlift : ∀ g r, lift g (f r) = f (lift' g r)) (op : Operation τ) :
    Mirrors f ((op.within lift').perform st' dev') ((op.within lift).perform st dev) := by
  cases op with
  | adjust a => exact mirrors_discard (hf.adjust a)
  | moveTo target shift waitMs => exact mirrors_discard (hf.moveTo target shift waitMs)
  | walk m => exact mirrors_discard (hf.walk m)
  | clock => exact mirrors_discard hf.askClock
  | cancel => exact mirrors_discard (hf.rollbackArmed _ _)
  | expire generation => exact hf.expire generation
  | awaitEnd ms => exact mirrors_discard (hf.awaitEnd ms)
  | outside g => exact mirrors_lift fun r => congrArg (Prod.mk ()) (hlift g r)

theorem leave {τ : Type} (lift' : (τ → τ) → ρ → ρ) (lift : (τ → τ) → σ → σ)
    (hlift : ∀ g r, lift g (f r) = f (lift' g r)) :
    ∀ (ops : List (Operation τ)) (c : Controller δ) (r : ρ),
      Operation.leave st dev (ops.map (·.within lift)) c (f r) =
        let (c, r) := Operation.leave st' dev' (ops.map (·.within lift')) c r
        (c, f r)
  | [], _, _ => rfl
  | op :: ops, c, r => by
    have hop := hf.perform hlift op c r
    have hrest := leave lift' lift hlift ops
    simp only [List.map_cons, Operation.leave]
    rw [hop]
    exact hrest _ _

end Faithful

/-! ## Recorded runs -/

variable {δ σ : Type} (st : Station σ) (dev : Adjustable δ σ)

theorem faithful_recorded :
    Faithful Recorded.world (st.recorded δ) dev.recorded st dev where
  stopRequested _ _ := rfl
  report n _ := by cases h : n.isRestored <;> simp only [Station.recorded, h] <;> rfl
  pause _ _ := rfl
  armTimer _ _ _ := rfl
  cancelTimer _ _ := rfl
  elapse _ := rfl
  retune _ _ _ := rfl
  program _ _ _ := rfl
  capture _ _ := rfl
  clock := rfl
  listing := rfl

def Recorded.after (older : List (Event δ σ)) (r : Recorded δ σ) : Recorded δ σ :=
  ⟨r.world, r.events ++ older⟩

theorem faithful_after (older : List (Event δ σ)) :
    Faithful (Recorded.after older) (st.recorded δ) dev.recorded (st.recorded δ) dev.recorded where
  stopRequested _ _ := rfl
  report n _ := by cases h : n.isRestored <;> simp only [Station.recorded, h] <;> rfl
  pause _ _ := rfl
  armTimer _ _ _ := rfl
  cancelTimer _ _ := rfl
  elapse _ := rfl
  retune _ _ _ := rfl
  program _ _ _ := rfl
  capture _ _ := rfl
  clock := rfl
  listing := rfl

namespace Operation

theorem map_within_id (ops : List (Operation σ)) : ops.map (·.within id) = ops := by
  induction ops with
  | nil => rfl
  | cons op ops ih =>
    rw [List.map_cons, ih]
    cases op <;> rfl

theorem leave_eq_record (ops : List (Operation σ)) (c : Controller δ) (s : σ) :
    leave st dev ops c s = ((record st dev ops c s).1, (record st dev ops c s).2.world) := by
  have h := (faithful_recorded st dev).leave (fun f r => { r with world := f r.world }) id (fun _ _ => rfl) ops c ⟨s, []⟩
  rw [map_within_id] at h
  exact h

/-- `P` holds of every operation of a run, with the state it starts in. -/
def Along (P : Operation σ → Controller δ → σ → Prop) :
    List (Operation σ) → Controller δ → σ → Prop
  | [], _, _ => True
  | op :: ops, c, s =>
    P op c s ∧ Along P ops (leave st dev [op] c s).1 (leave st dev [op] c s).2

theorem record_cons (op : Operation σ) (ops : List (Operation σ)) (c : Controller δ) (s : σ) :
    let (c₁, s₁) := leave st dev [op] c s
    record st dev (op :: ops) c s =
      ((record st dev ops c₁ s₁).1,
        (record st dev ops c₁ s₁).2.after (record st dev [op] c s).2.events) := by
  have hlift (f : σ → σ) (r : Recorded δ σ) :
      (⟨f (r.after (record st dev [op] c s).2.events).world,
        (r.after (record st dev [op] c s).2.events).events⟩ : Recorded δ σ) =
          Recorded.after (record st dev [op] c s).2.events ⟨f r.world, r.events⟩ := rfl
  -- recording on top of older events is a projection of recording from scratch
  have hrest := (faithful_after st dev (record st dev [op] c s).2.events).leave
    (fun f r => { r with world := f r.world }) (fun f r => { r with world := f r.world }) hlift ops
    (record st dev [op] c s).1 ⟨(record st dev [op] c s).2.world, []⟩
  rw [leave_eq_record]
  exact hrest

end Operation

end Retune
