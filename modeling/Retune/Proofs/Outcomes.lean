import Retune.Proofs.Status
import Retune.Proofs.Walks

/-!
# How adjustments end

An adjustment that cannot be computed with changes nothing. Any other first
rolls back one that is still armed, and then ends in one of six ways, each with
an answer, a status, what was programmed and what the registers hold.
-/

namespace Retune

open Controller

/-! ## How an adjustment runs -/

def Adjustment.move {δ σ : Type} (a : Adjustment) (dev : Adjustable δ σ) (d : δ) : Move :=
  ⟨dev.clock d .found, a.target (dev.clock d .found), a.stepShift, a.waitMs, true⟩

def Controller.proceed {δ σ : Type} (st : Station σ) (dev : Adjustable δ σ) (a : Adjustment) :
    Holding (Controller δ) σ Unit := do
  let (found, target) ← captureTarget st dev a
  if !a.commit || a.rollbackDelay == 0 then
    st.report AdjustmentNotice.notUpdated
    modify (update .finish)
  else moveTarget st dev a found target

section
variable {γ δ σ : Type} (st : Station σ) (dev : Adjustable δ σ) (a : Adjustment)

theorem reports_run : ∀ (l : List Notice) (c : γ) (s : σ),
    (l.forM fun n => liftM (st.report n) : Holding γ σ PUnit).run c s =
      ((.ok ⟨⟩, c), l.foldl (fun s n => (st.report n s).2) s)
  | [], _, _ => rfl
  | n :: l, c, s => by
    show ((liftM (st.report n) : Holding γ σ PUnit) >>= fun _ =>
      l.forM fun n => liftM (st.report n)).run c s = _
    rw [run_andThen, run_call]
    exact reports_run l c (st.report n s).2

theorem adjust_run (c : Controller δ) (s : σ) :
    (adjust st dev a).run c s =
      if a.isFinite then
        let s := (st.report (AdjustmentNotice.rollbackDelay a.rollbackDelay a.thresholdUs) s).2
        let rolled := rollbackArmed st dev none (some .restoringFirst) c s
        (proceed st dev a).run rolled.1.2 rolled.2
      else
        ((.error (.invalidArgument "non-finite drift or shift"), c),
          (st.report (AdjustmentNotice.invalidDrift a.driftMs a.shift a.fastShift) s).2) := by
  unfold adjust
  cases a.isFinite with
  | false => rfl
  | true => rfl

theorem captureTarget_run (c : Controller δ) (s : σ) :
    (captureTarget st dev a).run c s =
      match dev.capture c.device s with
      | ((.error e, d), s) =>
        ((.error e, Controller.update .finish { c with device := d }),
          (st.report (AdjustmentNotice.captureFailed e) s).2)
      | ((.ok (), d), s) =>
        let m := a.move dev d
        ((.ok (m.current, m.target), Controller.update
            (.planned m.current m.target a.stepShift a.waitMs) { c with device := d }),
          (st.report (AdjustmentNotice.planned m.current m.target) s).2) := by
  have hcapture : (capture dev).outcome.run c s =
      ((.ok (dev.capture c.device s).1.1, { c with device := (dev.capture c.device s).1.2 }),
        (dev.capture c.device s).2) := rfl
  unfold captureTarget
  rw [run_andThen, hcapture]
  rcases dev.capture c.device s with ⟨⟨e | u, d⟩, s'⟩ <;> rfl

theorem moveTarget_run (found target : Float) (c : Controller δ) (s : σ) :
    (moveTarget st dev a found target).run c s =
      let m : Move := ⟨found, target, a.stepShift, a.waitMs, true⟩
      match (m.walk st.toEnvironment dev.toWalkable c.signal).run c.device s with
      | ((.error e, d), s) =>
        ((.error e, Controller.update .finish { c with device := d }),
          (st.report (AdjustmentNotice.walkFailed e) s).2)
      | ((.ok .interrupted, d), s) =>
        ((((dev.program d .found).run s).1, Controller.update .finish { c with device := d }),
          ((dev.program d .found).run s).2)
      | ((.ok .completed, d), s) =>
        let s := (dev.listing d).foldl (fun s n => (st.report n s).2) s
        if a.autoReset then
          let armed := st.armTimer a.rollbackDelay (c.progress.generation + 1) s
          ((.ok (), Controller.update (fun p => p.arm.withTimer armed.1) { c with device := d }),
            armed.2)
        else ((.ok (), Controller.update .finish { c with device := d }), s) := by
  let m : Move := ⟨found, target, a.stepShift, a.waitMs, true⟩
  have hwalk : (walk st dev m).outcome.run (c.update (.enter .stepping)) s =
      let walked := (m.walk st.toEnvironment dev.toWalkable c.signal).run c.device s
      ((.ok walked.1.1, { c.update (.enter .stepping) with device := walked.1.2 }), walked.2) := rfl
  unfold moveTarget
  rw [run_andThen, run_change]
  dsimp only
  rw [run_andThen, hwalk]
  dsimp only
  rcases (m.walk st.toEnvironment dev.toWalkable c.signal).run c.device s with
    ⟨⟨e | _ | _, d⟩, s'⟩
  · rfl
  · dsimp only
    rw [run_andThen, run_current]
    dsimp only
    rw [run_andThen, reports_run]
    dsimp only
    split
    · exact arm_run _ _ _
    · rfl
  · dsimp only
    have hprogram : (program dev .found).outcome.run
        { c.update (.enter .stepping) with device := d } s' =
          ((.ok ((dev.program d .found).run s').1,
              { c.update (.enter .stepping) with device := d }),
            ((dev.program d .found).run s').2) := rfl
    rw [run_andThen, hprogram]
    dsimp only
    rcases (dev.program d .found).run s' with ⟨e | u, s''⟩ <;> rfl

theorem rollbackArmed_run {c : Controller δ} (harmed : c.isArmed) (reason : AdjustmentNotice)
    (s : σ) :
    rollbackArmed st dev none (some reason) c s =
      let rolled := rollback st dev (c.update .rollBack)
        (st.report reason (disarm st c.progress s)).2
      ((true, rolled.1.2), rolled.2) := by
  have htake : takeRollback st none c s = ((true, c.update .rollBack), disarm st c.progress s) := by
    rw [takeRollback_run, harmed]
    rfl
  unfold rollbackArmed
  rw [run_bind, htake]
  rfl

theorem proceed_run (c : Controller δ) (s : σ) :
    (proceed st dev a).run c s =
      match (captureTarget st dev a).run c s with
      | ((.error e, c), s) => ((.error e, c), s)
      | ((.ok (found, target), c), s) =>
        if !a.commit || a.rollbackDelay == 0 then
          ((.ok (), c.update .finish), (st.report AdjustmentNotice.notUpdated s).2)
        else (moveTarget st dev a found target).run c s := by
  unfold proceed
  rw [run_andThen]
  rcases (captureTarget st dev a).run c s with ⟨⟨e | ⟨found, target⟩, c'⟩, s'⟩
  · rfl
  · dsimp only
    split <;> rfl

end

variable {σ : Type} {h : Host σ} {st : Station σ} {file : RegisterFile h st} {timers : Timers h st}
  {addrs : List UInt32} {c c' : Controller Pll} {r r' : Recorded Pll σ}

/-! ## Rolling back first -/

structure AtRest (timers : Timers h st) (c : Controller Pll) (s : σ) : Prop where
  resting : c.progress.phase.isResting
  done : c.progress.done = true
  timer : c.progress.timer = none
  pending : ∀ id, ¬ timers.pending s id

theorem Consistent.atRest {s : σ} (hc : Consistent timers c s)
    (hphase : c.progress.phase.isResting) : AtRest timers c s := by
  have howing := Phase.isOwing_of_resting hphase
  have harmed := isArmed_of_not_owing howing
  refine ⟨hphase, hc.done howing, ?_, hc.none_pending harmed⟩
  have hholds := hc.holds
  rw [harmed] at hholds
  exact Option.isNone_iff_eq_none.mp (Option.isSome_eq_false_iff.mp hholds)

/-- What rolling back first leaves. An adjustment that was armed is walked back
and what was captured for it is programmed once. -/
structure Cleared (file : RegisterFile h st) (timers : Timers h st) (addrs : List UInt32)
    (c : Controller Pll) (r : Recorded Pll σ) (c' : Controller Pll) (r' : Recorded Pll σ) :
    Prop where
  rest : AtRest timers c' r'.world
  generation : c'.progress.generation = c.progress.generation
  restored : c.isArmed → ∃ b, baseline? r.events = some b ∧
    ∀ addr ∈ addrs, file.value r'.world addr = file.value b addr
  events : c.isArmed → ∃ moves d s s', (∀ e ∈ moves, e.IsMoveOf c.device) ∧
    r'.events = .restored s' :: .programmed d .found s :: (moves ++ r.events)
  untouched : ¬ c.isArmed → c' = c ∧ r'.events = r.events ∧
    file.value r'.world = file.value r.world

theorem walked_stepBack (hp : c.device.isPlain) (hr : file.plain r.world) :
    Reaches (fun _ _ => True) (stepBack (st.recorded Pll) (Pll.adjustable h).recorded) c r
      fun _ c' r' => ∃ moves d, c' = { c with device := d } ∧
        Walked file c.device r moves d r' := by
  let p := c.progress
  let back : Move := ⟨p.targetClock, p.foundClock, p.shift, p.waitMs, true⟩
  have hwalk : Reaches (fun _ _ => True)
      (walk (st.recorded Pll) (Pll.adjustable h).recorded back).run c r
      fun _ c' r' => ∃ d, c' = { c with device := d } ∧
        ∃ moves, Walked file c.device r moves d r' := by
    obtain ⟨moves, hw, -⟩ := (walked_walk (m := back) rfl hp hr c.signal).post
    exact ⟨anywhere, _, rfl, moves, hw⟩
  unfold stepBack
  refine reaches_bind (reaches_get (reaches_bind (hwalk.mono ?_)))
  rintro x _ r₁ ⟨d, rfl, moves, hw⟩
  rcases x with e | _ | _
  · exact reaches_lift anywhere ⟨moves, d, rfl, hw.report rfl⟩
  · exact reaches_pure ⟨moves, d, rfl, hw⟩
  · exact reaches_lift anywhere ⟨moves, d, rfl, hw.report rfl⟩

theorem walked_rollback (hp : c.device.isPlain) (hr : file.plain r.world) :
    Reaches (fun _ _ => True) (rollback (st.recorded Pll) (Pll.adjustable h).recorded) c r
      fun _ c' r' => ∃ moves d s s', c' = Controller.update .finish { c with device := d } ∧
        SameFound c.device.slots d.slots ∧ (∀ e ∈ moves, e.IsMoveOf c.device) ∧
          r'.events = .restored s' :: .programmed d .found s :: (moves ++ r.events) ∧
            file.value r'.world = written .found d.slots (file.value r.world) := by
  unfold rollback
  refine reaches_bind ((walked_stepBack hp hr).mono ?_)
  rintro _ _ r₁ ⟨moves, d, rfl, hw⟩
  refine reaches_of_run (restoreFound_run _ _) anywhere ?_
  obtain ⟨hplain, hvalue⟩ := reprogram_plain file hw.isPlain hw.plain
  have hsame := file.report (AdjustmentNotice.restored c.progress.foundClock) hplain
  rw [recorded_restore]
  refine ⟨moves, d, r₁.world, reprogram st (Pll.adjustable h) d r₁.world, rfl, hw.found, hw.only,
    ?_, ?_⟩
  · rw [← hw.events]
  · show file.value (st.report _ _).2 = _
    rw [hsame.2, hvalue, hw.registers, afterMoves_over hw.found hw.only]

variable (timers) in
theorem atRest_rollback (hc : c.Settled fun _ => True) (hs : Consistent timers c r.world) :
    let rolled := rollbackArmed (st.recorded Pll) (Pll.adjustable h).recorded none
      (some .restoringFirst) c r
    AtRest timers rolled.1.2 rolled.2.world := by
  intro rolled
  -- the plain run leads to the same controller and world, and stays consistent
  have hproject := (faithful_recorded st (Pll.adjustable h)).rollbackArmed none
    (some .restoringFirst) c r
  have hreaches : Reaches (Step st (Pll.adjustable h) (fun _ => True) (.shut σ))
      (rollbackArmed st (Pll.adjustable h) none (some .restoringFirst)) c r.world
      fun _ c' _ => c'.Settled (fun _ => True) ∧
        ((none : Option Nat) = none → c'.progress.phase.isResting) :=
    reaches_rollbackArmed (lasting_true h) none rfl hc
  have hkept := hreaches.keeps (I := fun a => Consistent timers a.1 a.2)
    (consistent_step fun _ hf => hf.elim) hs
  have hrest := hreaches.post.2 rfl
  rw [hproject] at hkept hrest
  exact hkept.atRest hrest

variable (timers) in
theorem cleared_rollback (hg : Guarded file addrs c r) (hc : c.Settled fun _ => True)
    (hs : Consistent timers c r.world) :
    let rolled := rollbackArmed (st.recorded Pll) (Pll.adjustable h).recorded none
      (some .restoringFirst) c r
    Cleared file timers addrs c r rolled.1.2 rolled.2 := by
  intro rolled
  have hrest : AtRest timers rolled.1.2 rolled.2.world := atRest_rollback timers hc hs
  by_cases harmed : c.isArmed
  · have hrun := rollbackArmed_run (st.recorded Pll) (Pll.adjustable h).recorded harmed
      .restoringFirst r
    have hdisarmed := disarm_plain c.progress hg.plain
    have hheard := hdisarmed.trans (file.report AdjustmentNotice.restoringFirst hdisarmed.1)
    rw [recorded_disarm, recorded_report (by rfl)] at hrun
    -- the controller that walks back is the armed one with its timer gone
    have hback := (walked_rollback (c := c.update .rollBack)
      (r := ⟨_, r.events⟩) hg.isPlain hheard.1).post
    dsimp only at hrun hback
    generalize rollback (st.recorded Pll) (Pll.adjustable h).recorded (c.update .rollBack) _ = left
      at hrun hback
    obtain ⟨moves, d, s, s', hleft, hfound, honly, hevents, hvalue⟩ := hback
    obtain ⟨b, hb, hfoundIn⟩ := hg.owing (by rw [isArmed_iff.mp harmed]; rfl)
    have hrolled : rolled = ((true, left.1.2), left.2) := hrun
    rw [hrolled] at hrest ⊢
    refine ⟨hrest, ?_, fun _ => ⟨b, hb, ?_⟩, fun _ => ⟨moves, d, s, s', honly, hevents⟩,
      fun hc => absurd harmed hc⟩
    · rw [hleft]
      rfl
    · intro addr haddr
      have haddrs : d.addrs = addrs := hfound.addrs_eq.trans hg.places
      rw [hvalue]
      exact value_of_foundIn (hfound.foundIn hfoundIn) _ (haddrs ▸ haddr)
  · have hrun : rolled = ((false, c), r) :=
      rollbackArmed_unwanted _ (fun hwanted => harmed (Bool.and_eq_true_iff.mp hwanted).1) r
    rw [hrun] at hrest ⊢
    exact ⟨hrest, rfl, fun hc => absurd hc harmed, fun hc => absurd hc harmed,
      fun _ => ⟨rfl, rfl, rfl⟩⟩

/-! ## Ways to end -/

inductive AdjustmentEnd where
  | captureFailed
  | notUpdated
  | interrupted
  | walkFailed
  | moved
  | armed
  deriving DecidableEq, Repr

def Adjustment.Updates (a : Adjustment) : Prop := a.commit = true ∧ a.rollbackDelay ≠ 0

theorem Adjustment.skips_iff (a : Adjustment) :
    (!a.commit || a.rollbackDelay == 0) = true ↔ ¬ a.Updates := by
  unfold Adjustment.Updates
  cases a.commit <;> simp

/-- The timer of the rollback has been armed in `s`, after `n` others, and it is the
only one. -/
structure Owed (timers : Timers h st) (a : Adjustment) (n : Nat) (s : σ) (c' : Controller Pll)
    (s' : σ) : Prop where
  phase : c'.progress.phase = .armed
  done : c'.progress.done = false
  generation : c'.progress.generation = n + 1
  timer : (st.armTimer a.rollbackDelay (n + 1) s).1 ∈ c'.progress.timer
  world : s' = (st.armTimer a.rollbackDelay (n + 1) s).2
  pending : ∀ id, timers.pending s' id ↔ id ∈ c'.progress.timer

namespace AdjustmentEnd

/-- When an adjustment ends this way: its capture has come to `x` and its walk to `w`. -/
def Cause (a : Adjustment) (x : Except Failure Unit) (w : Except Failure WalkEnd) :
    AdjustmentEnd → Prop
  | captureFailed => ∃ e, x = .error e
  | notUpdated => x = .ok () ∧ ¬ a.Updates
  | interrupted => x = .ok () ∧ a.Updates ∧ w = .ok .interrupted
  | walkFailed => x = .ok () ∧ a.Updates ∧ ∃ e, w = .error e
  | moved => x = .ok () ∧ a.Updates ∧ w = .ok .completed ∧ a.autoReset = false
  | armed => x = .ok () ∧ a.Updates ∧ w = .ok .completed ∧ a.autoReset = true

def answer (x : Except Failure Unit) (w : Except Failure WalkEnd) :
    AdjustmentEnd → Except Failure Unit
  | captureFailed => x
  | walkFailed => w.map fun _ => ()
  | _ => .ok ()

/-- What is left then: nothing has been programmed since the capture in `r`, which
read the device `d`, but proposals, one for each step of a complete walk, and in the
end what was captured if the walk was interrupted. -/
def Outcome (file : RegisterFile h st) (timers : Timers h st) (a : Adjustment) (d : Pll) (n : Nat)
    (r : Recorded Pll σ) (c' : Controller Pll) (r' : Recorded Pll σ) (k : AdjustmentEnd) : Prop :=
  let before := Event.captured r.world :: r.events
  let finished := c'.progress.phase = .done ∧ AtRest timers c' r'.world
  let complete (moves : List (Event Pll σ)) :=
    moves ≠ [] ∧ moves.length = (a.move (Pll.adjustable h) d).plan.steps.toNat
  match k with
  | captureFailed | notUpdated =>
    finished ∧ r'.events = before ∧ file.value r'.world = file.value r.world
  | interrupted => finished ∧ file.value r'.world = file.value r.world ∧
    ∃ moves d' s, (∀ e ∈ moves, e.IsMoveOf d) ∧
      r'.events = .programmed d' .found s :: (moves ++ before)
  | walkFailed => finished ∧ ∃ moves, (∀ e ∈ moves, e.IsMoveOf d) ∧ r'.events = moves ++ before ∧
    file.value r'.world = afterMoves moves (file.value r.world)
  | moved => finished ∧ ∃ moves, (∀ e ∈ moves, e.IsMoveOf d) ∧ complete moves ∧
    r'.events = moves ++ before ∧ file.value r'.world = afterMoves moves (file.value r.world)
  | armed => ∃ moves s, (∀ e ∈ moves, e.IsMoveOf d) ∧ complete moves ∧
    r'.events = .armed (n + 1) s :: (moves ++ before) ∧
      file.value r'.world = afterMoves moves (file.value r.world) ∧ Owed timers a n s c' r'.world

/-- The adjustment that has nothing to roll back, from `c` in `r` on, ends this way. -/
def Fits (file : RegisterFile h st) (timers : Timers h st) (a : Adjustment) (c : Controller Pll)
    (r : Recorded Pll σ) (ended : (Except Failure Unit × Controller Pll) × Recorded Pll σ)
    (k : AdjustmentEnd) : Prop :=
  let dev := (Pll.adjustable h).recorded
  let captured := dev.capture c.device r
  let m := a.move dev captured.1.2
  let planned := (st.recorded Pll).report (AdjustmentNotice.planned m.current m.target) captured.2
  let walked := (m.walk (st.recorded Pll).toEnvironment dev.toWalkable c.signal).run
    captured.1.2 planned.2
  k.Cause a captured.1.1 walked.1.1 ∧ ended.1.1 = k.answer captured.1.1 walked.1.1 ∧
    k.Outcome file timers a captured.1.2 c.progress.generation r ended.1.2 ended.2

theorem cause_unique {a : Adjustment} {x : Except Failure Unit} {w : Except Failure WalkEnd}
    {k k' : AdjustmentEnd} (hk : k.Cause a x w) (hk' : k'.Cause a x w) : k' = k := by
  cases k <;> cases k' <;> simp_all [Cause]

end AdjustmentEnd

/-! ## What is left -/

theorem Walked.reports {p d : Pll} {moves : List (Event Pll σ)} :
    ∀ {l : List Notice} {r' : Recorded Pll σ}, (∀ n ∈ l, n.isRestored = false) →
      Walked file p r moves d r' →
        Walked file p r moves d (l.foldl (fun r n => ((st.recorded Pll).report n r).2) r')
  | [], _, _, hw => hw
  | n :: l, _, hl, hw => by
    have hrest : ∀ m ∈ l, m.isRestored = false := fun m hm => hl m (List.mem_cons_of_mem _ hm)
    rw [List.foldl_cons]
    exact Walked.reports hrest (hw.report (hl n List.mem_cons_self))

theorem written_found {p : Pll} {s : σ} (hp : FoundIn file p s) :
    written .found p.slots (file.value s) = file.value s := by
  funext addr
  by_cases haddr : ∃ x ∈ p.slots, x.addr = addr
  · obtain ⟨x, hx, hxa, hvalue⟩ := written_of_mem (v := .found) (f := file.value s) haddr
    rw [hvalue, ← hxa]
    exact hp x hx
  · exact written_of_notMem fun x hx hxa => haddr ⟨x, hx, hxa⟩

theorem captured_plain {d : Pll} {x : Except Failure Unit} (hp : c.device.isPlain)
    (hr : file.plain r.world)
    (hcapture : (Pll.adjustable h).recorded.capture c.device r = ((x, d), r')) :
    file.Same r.world r'.world ∧ r'.events = .captured r.world :: r.events ∧ d.isPlain ∧
      (x = .ok () → FoundIn file d r.world) := by
  obtain ⟨hrun, hevents⟩ := recorded_capture hcapture
  obtain ⟨hsame, hd, -, hread⟩ := Pll.captures hp hr hrun
  exact ⟨hsame, hevents, hd, fun hx y hy => (hread hx y hy).1⟩

variable {a : Adjustment} {d : Pll}

variable (timers) in
theorem outcome_moveTarget {r₁ : Recorded Pll σ} (hcommit : a.Updates) (hd : c.device.isPlain)
    (hfound : FoundIn file c.device r.world) (hr : file.plain r₁.world)
    (hvalue : file.value r₁.world = file.value r.world)
    (hevents : r₁.events = .captured r.world :: r.events) :
    let dev := (Pll.adjustable h).recorded
    let m := a.move dev c.device
    let walked := (m.walk (st.recorded Pll).toEnvironment dev.toWalkable c.signal).run c.device r₁
    let ended := (moveTarget (st.recorded Pll) dev a m.current m.target).run c r₁
    Consistent timers ended.1.2 ended.2.world →
      ∃ k : AdjustmentEnd, k.Cause a (.ok ()) walked.1.1 ∧
        ended.1.1 = k.answer (.ok ()) walked.1.1 ∧
          k.Outcome file timers a c.device c.progress.generation r ended.1.2 ended.2 := by
  intro dev m walked ended hs
  have hrun : ended = _ := moveTarget_run (st.recorded Pll) dev a m.current m.target c r₁
  obtain ⟨moves, hw, hcomplete⟩ := (walked_walk (m := m) rfl hd hr c.signal).post
  have hm : (⟨m.current, m.target, a.stepShift, a.waitMs, true⟩ : Move) = m := rfl
  dsimp only at hrun
  rw [hm] at hrun
  have hwalked : (m.walk (st.recorded Pll).toEnvironment dev.toWalkable c.signal).run c.device r₁ =
    walked := rfl
  have hw' : Walked file c.device r₁ moves walked.1.2 walked.2 := hw
  have hcomplete' : walked.1.1 = .ok .completed → moves.length = m.plan.steps.toNat := hcomplete
  rw [hwalked] at hrun
  clear_value walked
  -- the walk fails, completes or is interrupted
  rcases walked with ⟨⟨e | _ | _, d⟩, r₂⟩
  · have hreported : Walked file c.device r₁ moves d
        ((st.recorded Pll).report (AdjustmentNotice.walkFailed e) r₂).2 := hw'.report rfl
    rw [hrun] at hs ⊢
    refine ⟨.walkFailed, ⟨rfl, hcommit, e, rfl⟩, rfl, ⟨rfl, hs.atRest rfl⟩, moves, hw'.only, ?_, ?_⟩
    · rw [← hevents]
      exact hreported.events
    · rw [← hvalue]
      exact hreported.registers
  · have hlisted : Walked file c.device r₁ moves d
        ((dev.listing d).foldl (fun r n => ((st.recorded Pll).report n r).2) r₂) :=
      hw'.reports (listing_quiet d)
    have hmoves : moves.length = m.plan.steps.toNat := hcomplete' rfl
    have hsome : moves ≠ [] := ne_nil_of_steps hmoves
    dsimp only at hrun
    generalize (dev.listing d).foldl (fun r n => ((st.recorded Pll).report n r).2) r₂ = r₃
      at hrun hlisted
    have hlog : r₃.events = moves ++ .captured r.world :: r.events := by
      rw [hlisted.events, hevents]
    have hregisters : file.value r₃.world = afterMoves moves (file.value r.world) := by
      rw [hlisted.registers, hvalue]
    split at hrun
    · next hauto =>
      rw [hrun] at hs ⊢
      refine ⟨.armed, ⟨rfl, hcommit, rfl, hauto⟩, rfl, moves, r₃.world, hw'.only, ⟨hsome, hmoves⟩,
        ?_, ?_, ?_⟩
      · rw [← hlog]
        rfl
      · rw [← hregisters]
        exact (file.armTimer _ _ hlisted.plain).2
      · refine ⟨rfl, rfl, rfl, rfl, rfl, fun id => ⟨hs.held id, fun hid => ?_⟩⟩
        rw [← Option.some.inj hid]
        exact timers.armed _ _ _
    · next hauto =>
      rw [hrun] at hs ⊢
      exact ⟨.moved, ⟨rfl, hcommit, rfl, Bool.eq_false_iff.mpr hauto⟩, rfl, ⟨rfl, hs.atRest rfl⟩,
        moves, hw'.only, ⟨hsome, hmoves⟩, hlog, hregisters⟩
  · obtain ⟨s', hprogram, -, hrestored⟩ := recorded_program hw'.isPlain .found hw'.plain
    dsimp only at hrun
    rw [hprogram] at hrun
    rw [hrun] at hs ⊢
    refine ⟨.interrupted, ⟨rfl, hcommit, rfl⟩, rfl, ⟨rfl, hs.atRest rfl⟩, ?_, moves, d, r₂.world,
      hw'.only, ?_⟩
    · show file.value s' = _
      rw [hrestored, hw'.registers, afterMoves_over hw'.found hw'.only, hvalue]
      exact written_found (hw'.found.foundIn hfound)
    · rw [← hevents, ← hw'.events]

theorem fits_proceed (timers : Timers h st) (a : Adjustment) (hp : c.device.isPlain)
    (hr : file.plain r.world) :
    let ended := (proceed (st.recorded Pll) (Pll.adjustable h).recorded a).run c r
    Consistent timers ended.1.2 ended.2.world →
      ∃ k : AdjustmentEnd, k.Fits file timers a c r ended := by
  intro ended hs
  let dev := (Pll.adjustable h).recorded
  let captured := dev.capture c.device r
  let m := a.move dev captured.1.2
  let planned := (st.recorded Pll).report (AdjustmentNotice.planned m.current m.target) captured.2
  let walked := (m.walk (st.recorded Pll).toEnvironment dev.toWalkable c.signal).run
    captured.1.2 planned.2
  show ∃ k : AdjustmentEnd, k.Cause a captured.1.1 walked.1.1 ∧
    ended.1.1 = k.answer captured.1.1 walked.1.1 ∧
      k.Outcome file timers a captured.1.2 c.progress.generation r ended.1.2 ended.2
  have hrun : ended = _ := proceed_run (st.recorded Pll) dev a c r
  have hcapture : dev.capture c.device r = captured := rfl
  rw [captureTarget_run, hcapture] at hrun
  clear_value captured
  obtain ⟨hsame, hevents, hd, hfound⟩ := captured_plain hp hr hcapture
  rcases captured with ⟨⟨e | u, d⟩, r₁⟩
  · have hreported := file.report (AdjustmentNotice.captureFailed e) hsame.1
    dsimp only at hrun
    rw [recorded_report (by rfl)] at hrun
    rw [hrun] at hs ⊢
    exact ⟨.captureFailed, ⟨e, rfl⟩, rfl, ⟨rfl, hs.atRest rfl⟩, hevents,
      hreported.2.trans hsame.2⟩
  · have hreported := hsame.trans
      (file.report (AdjustmentNotice.planned m.current m.target) hsame.1)
    have hplanned : planned = ((), ⟨_, r₁.events⟩) :=
      recorded_report (n := AdjustmentNotice.planned m.current m.target) rfl r₁
    have hquiet : file.Same r.world planned.2.world := by
      rw [hplanned]
      exact hreported
    have hlog : planned.2.events = .captured r.world :: r.events := by
      rw [hplanned]
      exact hevents
    have hmove : a.move dev d = m := rfl
    have hheard : (st.recorded Pll).report (AdjustmentNotice.planned m.current m.target) r₁ =
      planned := rfl
    dsimp only at hrun
    rw [hmove, hheard] at hrun
    let c₁ := Controller.update (.planned m.current m.target a.stepShift a.waitMs)
      { c with device := d }
    by_cases hupdates : a.Updates
    · rw [if_neg (fun hskip => a.skips_iff.mp hskip hupdates)] at hrun
      have hmoved := outcome_moveTarget timers (c := c₁) hupdates hd (hfound rfl) hquiet.1 hquiet.2
        hlog
      rw [hrun] at hs ⊢
      obtain ⟨k, hcause, hanswer, hleft⟩ := hmoved hs
      exact ⟨k, hcause, hanswer, hleft⟩
    · rw [if_pos (a.skips_iff.mpr hupdates), recorded_report (by rfl)] at hrun
      have hnoticed := file.report AdjustmentNotice.notUpdated hquiet.1
      rw [hrun] at hs ⊢
      exact ⟨.notUpdated, ⟨rfl, hupdates⟩, rfl, ⟨rfl, hs.atRest rfl⟩, hlog,
        hnoticed.2.trans hquiet.2⟩

theorem Cleared.of_same {r₀ : Recorded Pll σ} (hc : Cleared file timers addrs c r₀ c' r')
    (hs : file.value r₀.world = file.value r.world) (he : r₀.events = r.events) :
    Cleared file timers addrs c r c' r' := by
  obtain ⟨hrest, hgeneration, hrestored, hevents, huntouched⟩ := hc
  rw [he] at hrestored hevents huntouched
  rw [hs] at huntouched
  exact ⟨hrest, hgeneration, hrestored, hevents, huntouched⟩

theorem consistent_adjust {ops : List (Operation σ)}
    (hops : ∀ f, .outside f ∈ ops → ∀ s, timers.NoneNew s (f s)) (p : Pll) (signal : Signal) {s : σ}
    (hs : ∀ id, ¬ timers.pending s id) (a : Adjustment) :
    let run := Operation.record st (Pll.adjustable h) ops (.ofDevice p signal) s
    let ended := (adjust (st.recorded Pll) (Pll.adjustable h).recorded a).run run.1 run.2
    Consistent timers ended.1.2 ended.2.world := by
  intro run ended
  have hall : ∀ f, .outside f ∈ ops ++ [.adjust a] → ∀ s, timers.NoneNew s (f s) := by
    intro f hf
    rcases List.mem_append.mp hf with hf | hf
    · exact hops f hf
    · cases List.mem_singleton.mp hf
  have hleave := Operation.leave_eq_record st (Pll.adjustable h) ops (.ofDevice p signal) s
  have hproject := (faithful_recorded st (Pll.adjustable h)).adjust a run.1 run.2
  have hconsistent := (consistent_run hall p signal hs).2
  rw [Operation.leave_append, hleave] at hconsistent
  have hplain : Consistent timers ((adjust st (Pll.adjustable h) a).run run.1 run.2.world).1.2
    ((adjust st (Pll.adjustable h) a).run run.1 run.2.world).2 := hconsistent
  rw [hproject] at hplain
  exact hplain

/-- Whatever a controller of a PLL on plain registers has been through, an adjustment
that cannot be computed with fails and changes nothing. Any other first rolls back
the one that is still armed, if there is one, and then ends in exactly one way. -/
theorem adjust_outcome (file : RegisterFile h st) (timers : Timers h st) (p : Pll)
    (hp : p.isPlain) (signal : Signal) (ops : List (Operation σ)) (hops : SoleWriter file ops)
    (hquiet : ∀ f, .outside f ∈ ops → ∀ s, timers.NoneNew s (f s)) (s : σ) (hs : file.plain s)
    (hnone : ∀ id, ¬ timers.pending s id) (a : Adjustment) :
    let dev := (Pll.adjustable h).recorded
    let run := Operation.record st (Pll.adjustable h) ops (.ofDevice p signal) s
    let ended := (adjust (st.recorded Pll) dev a).run run.1 run.2
    Operation.leave st (Pll.adjustable h) ops (.ofDevice p signal) s = (run.1, run.2.world) ∧
      (adjust st (Pll.adjustable h) a).run run.1 run.2.world = (ended.1, ended.2.world) ∧
      (a.isFinite = false →
        ended.1 = (.error (.invalidArgument "non-finite drift or shift"), run.1) ∧
          ended.2.events = run.2.events ∧ file.value ended.2.world = file.value run.2.world ∧
            timers.pending ended.2.world = timers.pending run.2.world) ∧
      (a.isFinite = true →
        let heard := (st.recorded Pll).report
          (AdjustmentNotice.rollbackDelay a.rollbackDelay a.thresholdUs) run.2
        let rolled := rollbackArmed (st.recorded Pll) dev none (some .restoringFirst) run.1 heard.2
        Cleared file timers p.addrs run.1 run.2 rolled.1.2 rolled.2 ∧
          ∃! k : AdjustmentEnd, k.Fits file timers a rolled.1.2 rolled.2 ended) := by
  intro dev run ended
  have hleave := Operation.leave_eq_record st (Pll.adjustable h) ops (.ofDevice p signal) s
  have hproject := (faithful_recorded st (Pll.adjustable h)).adjust a run.1 run.2
  have hg : Guarded file p.addrs run.1 run.2 := guarded_record hops hp hs
  have hrun : ended = _ := adjust_run (st.recorded Pll) dev a run.1 run.2
  refine ⟨hleave, hproject, ?_, ?_⟩
  · intro hfinite
    rw [hfinite, recorded_report (by rfl)] at hrun
    rw [hrun]
    exact ⟨rfl, rfl, (file.report _ hg.plain).2, timers.report _ _⟩
  · intro hfinite heard rolled
    have hheard : heard = ((), ⟨_, run.2.events⟩) :=
      recorded_report (n := AdjustmentNotice.rollbackDelay a.rollbackDelay a.thresholdUs) rfl run.2
    have hreported := file.report (AdjustmentNotice.rollbackDelay a.rollbackDelay a.thresholdUs)
      hg.plain
    obtain ⟨hsettled, hconsistent⟩ := consistent_run hquiet p signal hnone
    rw [hleave] at hsettled hconsistent
    have hg₁ : Guarded file p.addrs run.1 heard.2 := by
      rw [hheard]
      exact hg.quiet hreported rfl rfl id id
    have hconsistent₁ : Consistent timers run.1 heard.2.world := by
      rw [hheard]
      exact hconsistent.quiet (Timers.noneNew_report _) rfl
    have hcleared := cleared_rollback timers hg₁ hsettled hconsistent₁
    have hg₂ : Guarded file p.addrs rolled.1.2 rolled.2 := by
      have hreaches : Reaches
          (Step (st.recorded Pll) dev (fun _ => True) ((Scope.shut σ).recorded Pll))
          (rollbackArmed (st.recorded Pll) dev none (some .restoringFirst)) run.1 heard.2
          fun _ c _ => c.Settled (fun _ => True) ∧
            ((none : Option Nat) = none → c.progress.phase.isResting) :=
        reaches_rollbackArmed (lasting_recorded h) none rfl hsettled
      exact hreaches.keeps (I := fun a => Guarded file p.addrs a.1 a.2)
        (guarded_step fun _ => nofun) hg₁
    have hended : ended = (proceed (st.recorded Pll) dev a).run rolled.1.2 rolled.2 := by
      rw [hrun, if_pos hfinite]
    have hfinal : Consistent timers ended.1.2 ended.2.world :=
      consistent_adjust hquiet p signal hnone a
    refine ⟨hcleared.of_same ?_ ?_, ?_⟩
    · rw [hheard]
      exact hreported.2
    · rw [hheard]
    · rw [hended] at hfinal ⊢
      obtain ⟨k, hk⟩ := fits_proceed timers a hg₂.isPlain hg₂.plain hfinal
      exact ⟨k, hk, fun k' hk' => AdjustmentEnd.cause_unique hk.1 hk'.1⟩

theorem AdjustmentEnd.Fits.owed {k : AdjustmentEnd}
    {ended : (Except Failure Unit × Controller Pll) × Recorded Pll σ}
    (hk : k.Fits file timers a c r ended) (hphase : ended.1.2.progress.phase = .armed) :
    AdjustmentEnd.armed.Fits file timers a c r ended := by
  cases k with
  | armed => exact hk
  | captureFailed | notUpdated | interrupted | walkFailed | moved =>
    exact absurd (hphase.symm.trans hk.2.2.1.1) (by decide)

theorem adjust_outcome_link :
    let st := Session.station 0 .byHand
    let dev := (Pll.adjustable Bench.host).recorded
    let run := Operation.record st (Pll.adjustable Bench.host) [.adjust .ofMillisecond]
      (.ofDevice (.dpMn (.ofPipe 0)) .session) Bench.ofLink
    let ended := (adjust (st.recorded Pll) dev .ofMillisecond).run run.1 run.2
    let heard := (st.recorded Pll).report (AdjustmentNotice.rollbackDelay
      Adjustment.ofMillisecond.rollbackDelay Adjustment.ofMillisecond.thresholdUs) run.2
    let rolled := rollbackArmed (st.recorded Pll) dev none (some .restoringFirst) run.1 heard.2
    run.1.isArmed = true ∧ AdjustmentEnd.armed.Fits (Bench.file 0 .byHand)
      (Bench.timersOf 0 .byHand) .ofMillisecond rolled.1.2 rolled.2 ended := by
  dsimp only
  have hops : SoleWriter (Bench.file 0 .byHand) [.adjust .ofMillisecond] := by
    intro f hf
    cases List.mem_singleton.mp hf
  have hquiet : ∀ f, .outside f ∈ [Operation.adjust .ofMillisecond] →
      ∀ b, (Bench.timersOf 0 .byHand).NoneNew b (f b) := by
    intro f hf
    cases List.mem_singleton.mp hf
  have hnone : ∀ id, ¬ (Bench.timersOf 0 .byHand).pending Bench.ofLink id := by
    rintro id ⟨t, ht, -⟩
    exact List.not_mem_nil ht
  obtain ⟨-, -, -, hends⟩ := adjust_outcome (Bench.file 0 .byHand) (Bench.timersOf 0 .byHand)
    (.dpMn (.ofPipe 0)) rfl .session [.adjust .ofMillisecond] hops hquiet Bench.ofLink
    Bench.plain_ofLink hnone .ofMillisecond
  obtain ⟨-, k, hk, -⟩ := hends (by decide +kernel)
  exact ⟨by decide +kernel, hk.owed (by decide +kernel)⟩

end Retune
