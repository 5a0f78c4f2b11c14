import Retune.Proofs.BenchFile
import Retune.Proofs.Flags
import Retune.Proofs.Rollbacks

/-!
# Programming from snapshots

What is programmed comes from a complete capture and the dividers proposed
since, unless a walk that was asked for as such commits on a device that has not
been captured. That walk alone captures nothing first.
-/

namespace Retune

variable {δ σ : Type}

/-! ## Snapshots -/

/-- A device that was captured completely and has only been retuned since. -/
inductive Snapshot (dev : Adjustable δ σ) : δ → Prop where
  | captured {d d' s s'} : dev.capture d s = ((.ok (), d'), s') → Snapshot dev d'
  | retuned {d d' clock s s'} : Snapshot dev d → dev.retune d clock s = (.ok d', s') →
      Snapshot dev d'

structure Flagged (dev : Adjustable δ σ) : Prop where
  capture : ∀ {d r d' s s'}, dev.capture d s = ((r, d'), s') → dev.captured d' = r.isOk
  retune : ∀ {d clock s d' s'}, dev.retune d clock s = (.ok d', s') →
    dev.captured d' = dev.captured d
  listing : ∀ d, ∀ n ∈ dev.listing d, n.isRestored = false

theorem Pll.flagged (h : Host σ) : Flagged (Pll.adjustable h) where
  capture := Pll.captured_capture h
  retune hr := Pll.captured_retune h _ _ _ _ _ hr
  listing := listing_quiet

def Whole (dev : Adjustable δ σ) (d : δ) : Prop := dev.captured d = true ∧ Snapshot dev d

def Honest (dev : Adjustable δ σ) (d : δ) : Prop := dev.captured d = true → Snapshot dev d

def Event.device? : Event δ σ → Option δ
  | .programmed d _ _ => some d
  | _ => none

section
variable {dev : Adjustable δ σ}

theorem Flagged.lasting (hf : Flagged dev) : Lasting dev (Whole dev) where
  capture h := ⟨hf.capture h, .captured h⟩
  retune h hd := ⟨(hf.retune h).trans hd.1, .retuned hd.2 h⟩
  listing := hf.listing

theorem Flagged.honest_capture (hf : Flagged dev) {d d' : δ} {r : Except Failure Unit} {s s' : σ}
    (h : dev.capture d s = ((r, d'), s')) : Honest dev d' := by
  intro hd
  cases r with
  | error e => exact absurd ((hf.capture h).symm.trans hd) Bool.false_ne_true
  | ok u => exact .captured h

theorem Flagged.honest_retune (hf : Flagged dev) {d d' : δ} {clock : Float} {s s' : σ}
    (h : dev.retune d clock s = (.ok d', s')) (hd : Honest dev d) : Honest dev d' :=
  fun hd' => .retuned (hd ((hf.retune h).symm.trans hd')) h

/-! ## Steps on a captured device -/

/-- All that has been programmed came from snapshots, and a walk asked for as
such has one to go on. -/
structure Careful (dev : Adjustable δ σ) (x : Scope σ) (c : Controller δ) (r : Recorded δ σ) :
    Prop where
  honest : Honest dev c.device
  ready : x.commits → dev.captured c.device = true
  whole : ∀ e ∈ r.events, ∀ d ∈ e.device?, Whole dev d

variable {st : Station σ} {x : Scope σ}

theorem Careful.of_eq {c c' : Controller δ} {r r' : Recorded δ σ} (h : Careful dev x c r)
    (hdevice : c'.device = c.device) (hevents : r'.events = r.events) : Careful dev x c' r' := by
  obtain ⟨hh, hr, hw⟩ := h
  rw [← hdevice] at hh hr
  rw [← hevents] at hw
  exact ⟨hh, hr, hw⟩

theorem Careful.retuned (hf : Flagged dev) {c : Controller δ} {r : Recorded δ σ}
    (h : Careful dev x c r) {clock : Float} {d : δ} {s : σ}
    (hretune : dev.retune c.device clock r.world = (.ok d, s)) :
    Careful dev x { c with device := d } ⟨s, r.events⟩ :=
  ⟨hf.honest_retune hretune h.honest, fun ho => (hf.retune hretune).trans (h.ready ho), h.whole⟩

theorem Careful.cons {c : Controller δ} {r : Recorded δ σ} (h : Careful dev x c r)
    {e : Event δ σ} (he : ∀ d ∈ e.device?, Whole dev d) (s : σ) :
    Careful dev x c ⟨s, e :: r.events⟩ :=
  ⟨h.honest, h.ready, List.forall_mem_cons.mpr ⟨he, h.whole⟩⟩

theorem Careful.captured (hf : Flagged dev) {c : Controller δ} {r : Recorded δ σ}
    (h : Careful dev x c r) (hx : ¬ x.commits) {a : Except Failure Unit} {d : δ} {s : σ}
    (hcapture : dev.capture c.device r.world = ((a, d), s)) :
    Careful dev x { c with device := d } ⟨s, .captured r.world :: r.events⟩ :=
  ⟨hf.honest_capture hcapture, fun h => absurd h hx, List.forall_mem_cons.mpr ⟨nofun, h.whole⟩⟩

theorem careful_step (hf : Flagged dev) (hx : x.captures → ¬ x.commits) (a b : Controller δ × Recorded δ σ)
    (h : Controller.Step (st.recorded δ) dev.recorded (Whole dev) (x.recorded δ) a b)
    (ha : Careful dev x a.1 a.2) : Careful dev x b.1 b.2 := by
  cases h with
  | noticed n hn =>
    rw [recorded_report hn]
    exact ha.of_eq rfl rfl
  | asked | paused | elapsed | retargeted | planned | entered | finished => exact ha.of_eq rfl rfl
  | refused clock h => exact ha.of_eq rfl (recorded_retune h).2
  | tried clock _ h =>
    obtain ⟨hretune, hevents⟩ := recorded_retune h
    exact (ha.retuned hf hretune).of_eq rfl hevents
  | @moved c r clock d r' hk _ h =>
    obtain ⟨hretune, hevents⟩ := recorded_retune h
    have ha' : Careful dev x { c with device := d } r' := (ha.retuned hf hretune).of_eq rfl hevents
    -- a walk asked for as such finds the flag up, any other is on a captured device
    have hd : dev.captured d = true := by
      rw [hf.retune hretune]
      rcases hk with ho | hk
      · exact ha.ready ho
      · exact hk.1
    refine ha'.cons (e := .programmed d .proposed r'.world) ?_ _
    intro d' hd'
    cases hd'
    exact ⟨hd, ha'.honest hd⟩
  | looked ho _ h =>
    obtain ⟨hcapture, hevents⟩ := recorded_capture h
    exact (ha.captured hf (hx ho) hcapture).of_eq rfl hevents
  | began ho _ h =>
    obtain ⟨hcapture, hevents⟩ := recorded_capture h
    exact (ha.captured hf (hx ho) hcapture).of_eq rfl hevents
  | @undone c r _ hk =>
    refine (ha.cons (e := .programmed c.device .found r.world) ?_ _).of_eq rfl rfl
    intro d hd
    cases hd
    exact hk
  | @armed c r delayMs _ _ _ _ h =>
    cases h
    exact (ha.cons (e := .armed (c.progress.generation + 1) r.world) nofun _).of_eq rfl rfl
  | taken =>
    rw [recorded_disarm]
    exact ha.of_eq rfl rfl
  | @restored c r _ hk =>
    rw [recorded_restore]
    have hfound : ∀ d ∈ (Event.programmed c.device .found r.world).device?, Whole dev d := by
      intro d hd
      cases hd
      exact hk
    have ha' := ha.cons hfound r.world
    exact (ha'.cons (e := .restored (Controller.reprogram st dev c.device r.world)) nofun _).of_eq
      rfl rfl
  | outside f h =>
    obtain ⟨g, -, rfl⟩ := h
    exact ha.of_eq rfl rfl

/-! ## Walks on a device that has not been captured -/

structure Careless (dev : Adjustable δ σ) (c : Controller δ) (r : Recorded δ σ) : Prop where
  unread : dev.captured c.device = false
  events : ∀ e ∈ r.events, ∀ d ∈ e.device?, dev.captured d = false

theorem careless_step (hf : Flagged dev) (hcaptures : ¬ x.captures)
    (houtside : ∀ f, ¬ x.outside f) (a b : Controller δ × Recorded δ σ)
    (h : Controller.Step (st.recorded δ) dev.recorded (Whole dev) (x.recorded δ) a b)
    (ha : Careless dev a.1 a.2) : Careless dev b.1 b.2 := by
  obtain ⟨hc, hr⟩ := ha
  cases h with
  | noticed n hn =>
    rw [recorded_report hn]
    exact ⟨hc, hr⟩
  | asked | paused | elapsed | retargeted | planned | entered | finished => exact ⟨hc, hr⟩
  | refused clock h => exact ⟨hc, (recorded_retune h).2 ▸ hr⟩
  | tried clock _ h =>
    obtain ⟨hretune, hevents⟩ := recorded_retune h
    exact ⟨(hf.retune hretune).trans hc, hevents ▸ hr⟩
  | @moved c r clock d r' _ _ h =>
    obtain ⟨hretune, hevents⟩ := recorded_retune h
    have hd : dev.captured d = false := (hf.retune hretune).trans hc
    refine ⟨hd, List.forall_mem_cons.mpr ⟨?_, hevents ▸ hr⟩⟩
    intro d' hd'
    cases hd'
    exact hd
  | looked hn | began hn => exact absurd hn hcaptures
  | undone _ hk | armed _ _ hk | restored _ hk => exact absurd hk.1 (by rw [hc]; exact nofun)
  | taken =>
    rw [recorded_disarm]
    exact ⟨hc, hr⟩
  | outside f h =>
    obtain ⟨g, hg, -⟩ := h
    exact absurd hg (houtside g)

/-! ## Runs -/

/-- A walk that is asked for as such and commits, on a device that has not been
captured, programs nothing. -/
def Prepared (st : Station σ) (dev : Adjustable δ σ) (op : Operation σ) (c : Controller δ) (s : σ) :
    Prop :=
  ∀ m, op = .walk m → m.commit = true → dev.captured c.device = false →
    ∀ e ∈ (Operation.record st dev [op] c s).2.events, e.device? = none

variable {c : Controller δ} {s : σ}

variable (st) in
theorem careful_one (hf : Flagged dev) (op : Operation σ) (hc : c.Settled (Whole dev))
    (hd : Honest dev c.device) (hready : op.scope.commits → dev.captured c.device = true) :
    Honest dev (Operation.record st dev [op] c s).1.device ∧
      ∀ e ∈ (Operation.record st dev [op] c s).2.events, ∀ d ∈ e.device?, Whole dev d := by
  have hx : op.scope.captures → ¬ op.scope.commits := by
    intro hcaptures hcommits
    cases op <;> first | exact hcaptures.elim | exact hcommits.elim
  obtain ⟨-, hful⟩ := Operation.record_keeps (s := s) (I := Careful dev op.scope) st
    hf.lasting [op] (fun o ho => by rw [List.mem_singleton.mp ho]; exact careful_step hf hx) hc
    ⟨hd, hready, nofun⟩
  exact ⟨hful.honest, hful.whole⟩

variable (st) in
theorem careless_one (hf : Flagged dev) (m : Move) (hc : c.Settled (Whole dev))
    (hd : dev.captured c.device = false) :
    dev.captured (Operation.record st dev [.walk m] c s).1.device = false ∧
      ∀ e ∈ (Operation.record st dev [.walk m] c s).2.events, ∀ d ∈ e.device?,
        dev.captured d = false := by
  obtain ⟨-, hless⟩ := Operation.record_keeps (s := s) (I := Careless dev) st hf.lasting
    [.walk m] (fun o ho => by
      rw [List.mem_singleton.mp ho]
      exact careless_step hf id fun _ => id) hc ⟨hd, nofun⟩
  exact ⟨hless.unread, hless.events⟩

variable (st) in
theorem whole_one (hf : Flagged dev) (op : Operation σ) (hc : c.Settled (Whole dev))
    (hd : Honest dev c.device) :
    Honest dev (Operation.record st dev [op] c s).1.device ∧
      ((∀ e ∈ (Operation.record st dev [op] c s).2.events, ∀ d ∈ e.device?, Whole dev d) ↔
        Prepared st dev op c s) := by
  -- the one case that is not ready is a walk that commits on a device not captured
  by_cases hready : op.scope.commits → dev.captured c.device = true
  · obtain ⟨hhonest, hwhole⟩ := careful_one (s := s) st hf op hc hd hready
    refine ⟨hhonest, fun _ m hm hcommit hu => ?_, fun _ => hwhole⟩
    subst hm
    exact absurd (hu.symm.trans (hready hcommit)) Bool.false_ne_true
  · obtain ⟨hcommits, hu⟩ := Classical.not_imp.mp hready
    obtain ⟨m, rfl, hm⟩ : ∃ m, op = .walk m ∧ m.commit = true := by
      cases op with
      | walk m => exact ⟨m, rfl, hcommits⟩
      | _ => exact hcommits.elim
    rw [Bool.not_eq_true] at hu
    obtain ⟨hunread, hevents⟩ := careless_one (s := s) st hf m hc hu
    refine ⟨fun h => absurd (hunread.symm.trans h) Bool.false_ne_true, ?_, ?_⟩
    · intro hwhole _ _ _ _ e he
      cases hev : e.device? with
      | none => rfl
      | some d => exact absurd (hwhole e he d hev).1 (by rw [hevents e he d hev]; exact nofun)
    · intro hprepared e he d hev
      rw [hprepared m rfl hm hu e he] at hev
      cases hev

theorem whole_iff (hf : Flagged dev) : ∀ (ops : List (Operation σ)) {c : Controller δ} {s : σ},
    c.Settled (Whole dev) → Honest dev c.device →
      ((∀ e ∈ (Operation.record st dev ops c s).2.events, ∀ d ∈ e.device?, Whole dev d) ↔
        Operation.Along st dev (Prepared st dev) ops c s)
  | [], _, _, _, _ => ⟨fun _ => trivial, fun _ => nofun⟩
  | op :: ops, c, s, hc, hd => by
    obtain ⟨hd₁, hone⟩ := whole_one (s := s) st hf op hc hd
    have hc₁ : (Operation.record st dev [op] c s).1.Settled (Whole dev) :=
      (Operation.record_keeps (s := s) (I := fun _ _ => True) st hf.lasting [op]
        (fun _ _ _ _ _ _ => trivial) hc trivial).1
    have hrest := whole_iff hf ops (s := (Operation.record st dev [op] c s).2.world) hc₁ hd₁
    have hcons := Operation.record_cons st dev op ops c s
    rw [Operation.leave_eq_record] at hcons
    unfold Operation.Along
    rw [hcons, Operation.leave_eq_record, ← hone, ← hrest]
    simp only [Recorded.after, List.forall_mem_append]
    exact And.comm

end

/-- What a controller programs comes from complete captures exactly if no walk
that is asked for as such programs anything before there was one. -/
theorem programs_whole_iff (h : Host σ) (st : Station σ) (p : Pll) (hp : p.captured = false)
    (signal : Signal) (ops : List (Operation σ)) (s : σ) :
    let dev := Pll.adjustable h
    (∀ e ∈ (Operation.record st dev ops (.ofDevice p signal) s).2.events,
        ∀ d ∈ e.device?, d.captured = true ∧ Snapshot dev d) ↔
      Operation.Along st dev (fun op c s => ∀ m, op = .walk m → m.commit = true →
        c.device.captured = false →
          ∀ e ∈ (Operation.record st dev [op] c s).2.events, e.device? = none)
        ops (.ofDevice p signal) s :=
  whole_iff (Pll.flagged h) ops (.inl rfl) fun hp' => absurd (hp.symm.trans hp') Bool.false_ne_true

theorem programs_whole_link :
    (Pll.dpMn (.ofPipe 0)).captured = false ∧
      ∀ e ∈ (Operation.record (Bench.handStation 0) (Pll.adjustable Bench.host)
          [.adjust .ofMillisecond] (.ofDevice (.dpMn (.ofPipe 0)) .session) Bench.ofLink).2.events,
        ∀ d ∈ e.device?, d.captured = true ∧ Snapshot (Pll.adjustable Bench.host) d := by
  refine ⟨rfl, (programs_whole_iff Bench.host (Bench.handStation 0) (.dpMn (.ofPipe 0)) rfl .session
    [.adjust .ofMillisecond] Bench.ofLink).mpr ⟨?_, trivial⟩⟩
  intro m hm
  cases hm

/-- The first walk on a fresh link programs a zero that was never read. -/
theorem walk_programs_unread :
    let run := Operation.record (Bench.handStation 0) (Pll.adjustable Bench.host)
      [.walk ⟨100000.0, 99500.0, 0.0, 0, true⟩] (.ofDevice (.dpMn (.ofPipe 0)) .session)
      Bench.ofLink
    (¬ ∀ e ∈ run.2.events, ∀ d ∈ e.device?,
        d.captured = true ∧ Snapshot (Pll.adjustable Bench.host) d) ∧
      run.2.world.hardware.register 0x60044 = 0 := by
  intro run
  refine ⟨fun hall => ?_, by decide +kernel⟩
  have hunread : (run.2.events.any fun e => e.device?.any fun d => !d.captured) = true := by
    decide +kernel
  obtain ⟨e, he, hdevice⟩ := List.any_eq_true.mp hunread
  obtain ⟨d, hd, hflag⟩ := (Option.any_eq_true _ _).mp hdevice
  rw [(hall e he d hd).1] at hflag
  cases hflag

end Retune
