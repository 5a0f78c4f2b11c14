import Retune.Proofs.Restore

/-!
# Chains of adjustments

An adjustment that is made while another is armed rolls that one back first, so
it captures what the first one of the chain captured. However long the chain,
the baseline stays.
-/

namespace Retune

open Controller

variable {σ : Type} {h : Host σ} {st : Station σ} {file : RegisterFile h st} {addrs : List UInt32}
  {b : σ} {c : Controller Pll} {r : Recorded Pll σ}

def Agree (file : RegisterFile h st) (addrs : List UInt32) (b s : σ) : Prop :=
  ∀ a ∈ addrs, file.value s a = file.value b a

/-! ## Rolling back -/

/-- While the rollback of the armed adjustment is under way, and after it. -/
structure Returning (file : RegisterFile h st) (addrs : List UInt32) (b : σ) (c : Controller Pll)
    (r : Recorded Pll σ) : Prop where
  guarded : Guarded file addrs c r
  baseline : baseline? r.events = some b
  underway : c.progress.phase.isUnderway = false
  resting : c.progress.phase.isResting → Agree file addrs b r.world

theorem Agree.of_same {s s' : σ} (ha : Agree file addrs b s) (hs : file.Same s s') :
    Agree file addrs b s' := by
  intro a hmem
  rw [hs.2]
  exact ha a hmem

theorem returning_step {K : Pll → Prop} (a a' : Controller Pll × Recorded Pll σ)
    (hstep : Step (st.recorded Pll) (Pll.adjustable h).recorded K ((Scope.shut σ).recorded Pll) a a')
    (hr : Returning file addrs b a.1 a.2) : Returning file addrs b a'.1 a'.2 := by
  have hg := guarded_step (x := Scope.shut σ) (fun _ => nofun) a a' hstep hr.guarded
  obtain ⟨hguarded, hb, hu, hagree⟩ := hr
  have hplain := hguarded.plain
  cases hstep with
  | noticed n hn =>
    rw [recorded_report hn] at hg ⊢
    exact ⟨hg, hb, hu, fun hc => (hagree hc).of_same (file.report n hplain)⟩
  | asked signal => exact ⟨hg, hb, hu, fun hc => (hagree hc).of_same (file.stopRequested signal hplain)⟩
  | paused ms => exact ⟨hg, hb, hu, fun hc => (hagree hc).of_same (file.pause ms hplain)⟩
  | elapsed => exact ⟨hg, hb, hu, fun hc => (hagree hc).of_same (file.elapse hplain)⟩
  | @refused c r clock e r' hrun =>
    obtain ⟨hrun, hevents⟩ := recorded_retune hrun
    have hsame := Pll.same_retune hguarded.isPlain hplain hrun
    exact ⟨hg, by rw [hevents]; exact hb, hu, fun hc => (hagree hc).of_same hsame⟩
  | tried _ hx | looked hx | began hx => exact hx.elim
  | @moved c r clock d r' _ hmoves hrun =>
    obtain ⟨-, hevents⟩ := recorded_retune hrun
    refine ⟨hg, ?_, hu, fun hc => (hmoves hc).elim⟩
    show baseline? (Event.programmed d .proposed r'.world :: r'.events) = _
    rw [hevents]
    exact hb
  | planned _ _ _ _ hc | entered hc | undone hc | armed _ hc =>
    exact absurd (hc.symm.trans hu) Bool.false_ne_true.symm
  | @finished c r ho =>
    exact ⟨hg, hb, rfl, fun _ => hagree (Phase.isResting_of_not hu ho)⟩
  | retargeted clock hc => exact ⟨hg, hb, hu, hagree⟩
  | @taken c r hc =>
    rw [recorded_disarm] at hg ⊢
    exact ⟨hg, hb, rfl, nofun⟩
  | @restored c r hphase =>
    obtain ⟨hplain', hvalue⟩ := reprogram_plain file hguarded.isPlain hplain
    obtain ⟨b', hb', hfound⟩ := hguarded.owing (by rw [hphase]; rfl)
    have hsame := file.report (AdjustmentNotice.restored c.progress.foundClock) hplain'
    rw [recorded_restore] at hg ⊢
    refine ⟨hg, hb, rfl, fun _ a ha => ?_⟩
    cases hb.symm.trans hb'
    show file.value (Controller.restore st (Pll.adjustable h) c r.world) a = _
    rw [show file.value (Controller.restore st (Pll.adjustable h) c r.world) =
      file.value (Controller.reprogram st (Pll.adjustable h) c.device r.world) from hsame.2, hvalue]
    exact value_of_foundIn hfound _ (hguarded.places ▸ ha)
  | outside g hg' =>
    obtain ⟨f, hf, -⟩ := hg'
    exact hf.elim

/-! ## Capturing again -/

/-- The last capture was in `w`, and the baseline is that or still `b`. -/
structure Rebased (b w : σ) (r : Recorded Pll σ) : Prop where
  last : lastCapture? r.events = some w
  baseline : baseline? r.events = some b ∨ baseline? r.events = some w

theorem rebased_step {K : Pll → Prop} {w : σ} (a a' : Controller Pll × Recorded Pll σ)
    (hstep : Step (st.recorded Pll) (Pll.adjustable h).recorded K ((Scope.shut σ).recorded Pll) a a')
    (hr : Rebased b w a.2) : Rebased b w a'.2 := by
  obtain ⟨hlast, hb⟩ := hr
  cases hstep with
  | noticed n hn =>
    rw [recorded_report hn]
    exact ⟨hlast, hb⟩
  | asked | paused | elapsed | planned | entered | undone | finished | retargeted =>
    exact ⟨hlast, hb⟩
  | refused clock hrun =>
    rw [← (recorded_retune hrun).2] at hlast hb
    exact ⟨hlast, hb⟩
  | moved clock _ _ hrun =>
    rw [← (recorded_retune hrun).2] at hlast hb
    exact ⟨hlast, hb⟩
  | armed delayMs _ _ hrun =>
    cases hrun
    exact ⟨hlast, .inr hlast⟩
  | taken =>
    rw [recorded_disarm]
    exact ⟨hlast, hb⟩
  | restored =>
    rw [recorded_restore]
    exact ⟨hlast, hb⟩
  | tried _ hx | looked hx | began hx => exact hx.elim
  | outside g hg =>
    obtain ⟨f, hf, -⟩ := hg
    exact hf.elim

def Unmoved (file : RegisterFile h st) (addrs : List UInt32) (b : σ) (r : Recorded Pll σ) : Prop :=
  ∃ b', baseline? r.events = some b' ∧ Agree file addrs b b'

theorem Rebased.unmoved {w : σ} (hr : Rebased b w r) (hw : Agree file addrs b w) :
    Unmoved file addrs b r := by
  rcases hr.baseline with hb | hb
  · exact ⟨b, hb, fun _ _ => rfl⟩
  · exact ⟨w, hb, hw⟩

theorem lasting_recorded (h : Host σ) : Lasting (Pll.adjustable h).recorded fun _ => True :=
  (lasting_true h).recorded

theorem reaches_recapture (a : Adjustment) (hr : Returning file addrs b c r)
    (hc : c.progress.phase.isResting) :
    Reaches (fun _ _ => True)
      (captureTarget (st.recorded Pll) (Pll.adjustable h).recorded a).run c r
      (ending (fun _ c' r' => c'.progress.phase = .targetComputed ∧
          ∃ w, Agree file addrs b w ∧ Rebased b w r') fun _ _ r' => Unmoved file addrs b r') := by
  have howing := Phase.isOwing_of_resting hc
  unfold captureTarget
  rcases hcap : (Pll.adjustable h).recorded.capture c.device r with ⟨⟨x, d⟩, r'⟩
  have hrun : (Controller.capture (Pll.adjustable h).recorded).outcome.run c r =
      ((.ok x, { c with device := d }), r') := by
    rw [run_outcome, capture_run, hcap]
  have hevents := (recorded_capture hcap).2
  have hrebased : Rebased b r.world r' := by
    constructor <;> rw [hevents]
    · rfl
    · exact .inl hr.baseline
  have hagree : Agree file addrs b r.world := hr.resting hc
  cases x with
  | error e =>
    refine reaches_andThen (reaches_of_run hrun anywhere ?_)
    refine Reaches.mono (Reaches.keeping (reaches_fail (K := fun _ => True)
      (Pll.adjustable h).recorded rfl howing) rebased_step hrebased) ?_
    intro _ c₂ r₂ hfail
    obtain ⟨⟨rfl, -⟩, hlast⟩ := hfail
    exact hlast.unmoved hagree
  | ok u =>
    refine reaches_via (y := (planTarget (st.recorded Pll) (Pll.adjustable h).recorded a).run) ?_
      anywhere ((Reaches.keeping (reaches_planTarget (K := fun _ => True)
        (c := { c with device := d, progress := c.progress.enter .captured }) a rfl trivial)
        rebased_step hrebased).mono ?_)
    · rw [run_andThen, hrun]
      rfl
    · intro x c₂ r₂ hplan
      obtain ⟨hpost, hlast⟩ := hplan
      cases x with
      | error e => exact hpost.elim
      | ok targets => exact ⟨hpost.1, r.world, hagree, hlast⟩

theorem reaches_chained (a : Adjustment) (hg : Guarded file addrs c r) (hc : c.isArmed)
    (hb : baseline? r.events = some b) :
    Reaches (fun _ _ => True) (adjust (st.recorded Pll) (Pll.adjustable h).recorded a).run c r
      fun _ _ r' => Unmoved file addrs b r' := by
  unfold adjust
  dsimp only
  split
  · refine reaches_andThen (reaches_call anywhere (reaches_andThen (reaches_throw ?_)))
    exact ⟨b, hb, fun _ _ => rfl⟩
  · refine reaches_andThen (reaches_call anywhere ?_)
    rw [recorded_report (by rfl)]
    have hreturning : Returning file addrs b c
        ⟨(st.report (AdjustmentNotice.rollbackDelay a.rollbackDelay a.thresholdUs) r.world).2,
          r.events⟩ := by
      have hphase := isArmed_iff.mp hc
      refine ⟨hg.quiet (file.report _ hg.plain) rfl rfl id id, hb, ?_, ?_⟩ <;> rw [hphase]
      · rfl
      · exact nofun
    refine reaches_andThen (reaches_ignore (reaches_inner (Reaches.mono (Reaches.keeping
      (reaches_rollbackArmed (lasting_recorded h) none rfl (.inr ⟨hc, trivial⟩))
      returning_step hreturning) ?_)))
    intro _ c₁ r₁ hrolled
    obtain ⟨⟨-, hrest⟩, hreturned⟩ := hrolled
    refine reaches_andThen ((reaches_recapture a hreturned (hrest rfl)).mono ?_)
    intro x c₂ r₂ hcaptured
    cases x with
    | error e => exact hcaptured
    | ok targets =>
      obtain ⟨hphase, w, hw, hrebased⟩ := hcaptured
      dsimp only [ending]
      split
      · refine reaches_andThen (reaches_call anywhere (reaches_change anywhere ?_))
        rw [recorded_report (by rfl)]
        exact Rebased.unmoved ⟨hrebased.last, hrebased.baseline⟩ hw
      · refine Reaches.mono (Reaches.keeping (reaches_moveTarget (lasting_recorded h) a targets.1
          targets.2 hphase trivial) rebased_step hrebased) ?_
        intro _ c₃ r₃ hmoved
        exact hmoved.2.unmoved hw

/-! ## Runs -/

def SoleWriter (file : RegisterFile h st) (ops : List (Operation σ)) : Prop :=
  ∀ f, .outside f ∈ ops → ∀ s, file.plain s → file.Same s (f s)

theorem SoleWriter.outside {ops : List (Operation σ)} (hops : SoleWriter file ops)
    (op : Operation σ) (hop : op ∈ ops) (f : σ → σ) (hf : op.scope.outside f) (s : σ)
    (hs : file.plain s) : file.Same s (f s) := by
  cases op with
  | outside g =>
    cases hf
    exact hops f hop s hs
  | _ => exact hf.elim

theorem guarded_record {ops : List (Operation σ)} (hops : SoleWriter file ops) {p : Pll}
    (hp : p.isPlain) {signal : Signal} {s : σ} (hs : file.plain s) :
    Guarded file p.addrs (Operation.record st (Pll.adjustable h) ops (.ofDevice p signal) s).1
      (Operation.record st (Pll.adjustable h) ops (.ofDevice p signal) s).2 := by
  have hstart : Guarded file p.addrs (.ofDevice p signal) ⟨s, []⟩ :=
    ⟨hs, hp, rfl, nofun, nofun, .nil⟩
  exact (Operation.record_keeps st (lasting_true h) ops
    (fun op hop => guarded_step (hops.outside op hop)) (.inl rfl) hstart).2

theorem record_snoc (dev : Adjustable Pll σ) (ops : List (Operation σ)) (a : Adjustment)
    (c : Controller Pll) (s : σ) :
    (Operation.record st dev (ops ++ [.adjust a]) c s).2 =
      ((adjust (st.recorded Pll) dev.recorded a).run (Operation.record st dev ops c s).1
        (Operation.record st dev ops c s).2).2 := by
  unfold Operation.record
  rw [List.map_append, Operation.leave_append]
  rfl

theorem unmoved_chain {ops : List (Operation σ)} (hops : SoleWriter file ops) {p : Pll}
    (hp : p.isPlain) {signal : Signal} {s : σ} (hs : file.plain s) {as : List Adjustment}
    (has : ∀ n < as.length, (Operation.record st (Pll.adjustable h)
      (ops ++ (as.take n).map .adjust) (.ofDevice p signal) s).1.isArmed)
    (hb : baseline? (Operation.record st (Pll.adjustable h) ops (.ofDevice p signal) s).2.events =
      some b) :
    ∀ n ≤ as.length, Unmoved file p.addrs b (Operation.record st (Pll.adjustable h)
      (ops ++ (as.take n).map .adjust) (.ofDevice p signal) s).2
  | 0, _ => by
    rw [List.take_zero, List.map_nil, List.append_nil]
    exact ⟨b, hb, fun _ _ => rfl⟩
  | n + 1, hn => by
    obtain ⟨b₁, hb₁, hagree₁⟩ := unmoved_chain hops hp hs has hb n (Nat.le_of_succ_le hn)
    have hsole : SoleWriter file (ops ++ (as.take n).map .adjust) := by
      intro f hf
      rcases List.mem_append.mp hf with hf | hf
      · exact hops f hf
      · obtain ⟨a, -, ha⟩ := List.mem_map.mp hf
        cases ha
    have hlt : n < as.length := hn
    -- the adjustment may capture anew, but only after the registers hold what `b₁` held
    obtain ⟨b₂, hb₂, hagree₂⟩ :=
      (reaches_chained as[n] (guarded_record hsole hp hs) (has n hlt) hb₁).post
    rw [List.take_succ_eq_append_getElem hlt, List.map_append, ← List.append_assoc]
    refine ⟨b₂, ?_, fun a ha => (hagree₂ a ha).trans (hagree₁ a ha)⟩
    rw [List.map_singleton, record_snoc]
    exact hb₂

/-- Over any run on plain registers there is one complete rollback for every
timer armed, but for the one to come. It leaves every register of the PLL with
the value that was captured when the timer was armed, and adjusting while armed,
however often, leaves the values to be restored. -/
theorem rollbacks_restore (file : RegisterFile h st) (p : Pll) (hp : p.isPlain) (signal : Signal)
    (ops : List (Operation σ)) (hops : SoleWriter file ops) (s : σ) (hs : file.plain s) :
    let run := fun ops => Operation.record st (Pll.adjustable h) ops (.ofDevice p signal) s
    Operation.leave st (Pll.adjustable h) ops (.ofDevice p signal) s =
        ((run ops).1, (run ops).2.world) ∧
      (milestones (run ops).2.events).count .rolledBack + (if (run ops).1.isArmed then 1 else 0) =
        (run ops).1.progress.generation ∧
      Throughout (Event.restoresBaseline file p.addrs) (run ops).2.events ∧
      ∀ as : List Adjustment,
        (∀ n < as.length, (run (ops ++ (as.take n).map .adjust)).1.isArmed) →
          ∀ b, baseline? (run ops).2.events = some b →
            ∃ b', baseline? (run (ops ++ as.map .adjust)).2.events = some b' ∧
              ∀ a ∈ p.addrs, file.value b' a = file.value b a := by
  have hcount := count_of_timeline (timeline_record h st p signal ops s).1
  refine ⟨Operation.leave_eq_record _ _ _ _ _, hcount, (guarded_record hops hp hs).restores, ?_⟩
  intro as has b hb
  have hchain := unmoved_chain hops hp hs has hb as.length (Nat.le_refl _)
  rw [List.take_length] at hchain
  exact hchain

theorem rollbacks_restore_link :
    let run := Operation.record (Session.station 0 .byHand) (Pll.adjustable Bench.host)
      [.adjust .ofMillisecond, .adjust .ofMillisecond, .cancel]
      (.ofDevice (.dpMn (.ofPipe 0)) .session) Bench.ofLink
    milestones run.2.events = [.rolledBack, .armed 2, .rolledBack, .armed 1] ∧
      Throughout (Event.restoresBaseline (Bench.file 0 .byHand) (Pll.dpMn (.ofPipe 0)).addrs)
        run.2.events := by
  have hsole : SoleWriter (Bench.file 0 .byHand)
      [.adjust .ofMillisecond, .adjust .ofMillisecond, .cancel] := by
    intro f hf
    simp only [List.mem_cons, List.not_mem_nil, or_false, reduceCtorEq] at hf
  have hall := rollbacks_restore (Bench.file 0 .byHand) (.dpMn (.ofPipe 0)) rfl .session _ hsole
    Bench.ofLink Bench.plain_ofLink
  dsimp only at hall
  exact ⟨by decide +kernel, hall.2.2.1⟩

end Retune
