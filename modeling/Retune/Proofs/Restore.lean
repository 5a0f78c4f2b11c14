import Retune.Proofs.BenchFile
import Retune.Proofs.Rollbacks

/-!
# Rollbacks restore what was captured

On plain registers a complete rollback leaves every register of the PLL with
the value it had when the adjustment that armed the rollback captured it. What
was found survives everything that can happen in between.
-/

namespace Retune

variable {δ σ : Type}

/-! ## Baselines -/

def lastCapture? : List (Event δ σ) → Option σ
  | [] => none
  | .captured s :: _ => some s
  | _ :: older => lastCapture? older

def baseline? : List (Event δ σ) → Option σ
  | [] => none
  | .armed _ _ :: older => lastCapture? older
  | _ :: older => baseline? older

section
variable {h : Host σ} {st : Station σ} (file : RegisterFile h st)

/-- When a rollback is complete, the registers hold what they held in the
baseline. -/
def Event.restoresBaseline (addrs : List UInt32) : Event δ σ → List (Event δ σ) → Prop
  | .restored s, older =>
    ∃ b, baseline? older = some b ∧ ∀ a ∈ addrs, file.value s a = file.value b a
  | _, _ => True

def FoundIn (p : Pll) (b : σ) : Prop := ∀ x ∈ p.slots, x.found = file.value b x.addr

/-- An adjustment remembers what it captured until it is over. -/
structure Guarded (addrs : List UInt32) (c : Controller Pll) (r : Recorded Pll σ) : Prop where
  plain : file.plain r.world
  isPlain : c.device.isPlain
  places : c.device.addrs = addrs
  underway : c.progress.phase.isUnderway →
    ∃ b, lastCapture? r.events = some b ∧ FoundIn file c.device b
  owing : c.progress.phase.isOwing → ∃ b, baseline? r.events = some b ∧ FoundIn file c.device b
  restores : Throughout (Event.restoresBaseline file addrs) r.events

variable {file} {addrs : List UInt32} {c c' : Controller Pll} {r r' : Recorded Pll σ}

/-! ## Slots -/

theorem SameFound.addrs_eq {p q : Pll} (hpq : SameFound p.slots q.slots) : q.addrs = p.addrs := by
  have h := congrArg (List.map Prod.fst) hpq
  rw [List.map_map, List.map_map] at h
  exact h

theorem SameFound.foundIn {p q : Pll} (hpq : SameFound p.slots q.slots) {b : σ}
    (hp : FoundIn file p b) : FoundIn file q b := by
  intro x hx
  have hmem : (x.addr, x.found) ∈ p.slots.map fun x => (x.addr, x.found) :=
    hpq ▸ List.mem_map.mpr ⟨x, hx, rfl⟩
  obtain ⟨y, hy, heq⟩ := List.mem_map.mp hmem
  obtain ⟨haddr, hfound⟩ := Prod.mk.inj heq
  rw [← haddr, ← hfound]
  exact hp y hy

theorem value_of_foundIn {p : Pll} {b : σ} (hp : FoundIn file p b) (f : UInt32 → UInt32) {a : UInt32}
    (ha : a ∈ p.addrs) : written .found p.slots f a = file.value b a := by
  obtain ⟨y, hy, hya⟩ := List.mem_map.mp ha
  obtain ⟨x, hx, hxa, hvalue⟩ := written_of_mem (v := .found) (f := f) ⟨y, hy, hya⟩
  rw [hvalue, ← hxa]
  exact hp x hx

/-! ## Steps -/

theorem Guarded.quiet (hg : Guarded file addrs c r) (hs : file.Same r.world r'.world)
    (he : r'.events = r.events) (hd : c'.device = c.device)
    (hu : c'.progress.phase.isUnderway → c.progress.phase.isUnderway)
    (ho : c'.progress.phase.isOwing → c.progress.phase.isOwing) : Guarded file addrs c' r' := by
  obtain ⟨-, hp, ha, hunderway, howing, hr⟩ := hg
  refine ⟨hs.1, ?_, ?_, fun h => ?_, fun h => ?_, ?_⟩
  · rw [hd]
    exact hp
  · rw [hd]
    exact ha
  · rw [hd, he]
    exact hunderway (hu h)
  · rw [hd, he]
    exact howing (ho h)
  · rw [he]
    exact hr

theorem Guarded.retuned (hg : Guarded file addrs c r) {d : Pll} (hd : d.isPlain)
    (hf : SameFound c.device.slots d.slots) : Guarded file addrs { c with device := d } r where
  plain := hg.plain
  isPlain := hd
  places := hf.addrs_eq.trans hg.places
  underway hu := (hg.underway hu).imp fun _ hb => ⟨hb.1, hf.foundIn hb.2⟩
  owing ho := (hg.owing ho).imp fun _ hb => ⟨hb.1, hf.foundIn hb.2⟩
  restores := hg.restores

theorem Guarded.programmed (hg : Guarded file addrs c r) {s : σ} (hs : file.plain s) (d : Pll)
    (v : Version) (w : σ) : Guarded file addrs c ⟨s, .programmed d v w :: r.events⟩ where
  plain := hs
  isPlain := hg.isPlain
  places := hg.places
  underway := hg.underway
  owing := hg.owing
  restores := .cons trivial hg.restores

theorem Guarded.retune (hg : Guarded file addrs c r) {clock : Float} {d : Pll}
    (hr : (Pll.adjustable h).recorded.retune c.device clock r = (.ok d, r')) :
    Guarded file addrs { c with device := d } r' := by
  obtain ⟨hrun, hevents⟩ := recorded_retune hr
  obtain ⟨hd, hf⟩ := Pll.found_retune hg.isPlain clock _ _ _ hrun
  exact (hg.retuned hd hf).quiet (Pll.same_retune hg.isPlain hg.plain hrun) hevents rfl id id

theorem disarm_plain (p : Progress) {s : σ} (hs : file.plain s) :
    file.Same s (Controller.disarm st p s) := by
  unfold Controller.disarm
  cases p.timer with
  | none => exact .refl hs
  | some id => exact file.cancelTimer id hs

variable (file) in
theorem reprogram_plain {p : Pll} (hp : p.isPlain) {s : σ} (hs : file.plain s) :
    file.plain (Controller.reprogram st (Pll.adjustable h) p s) ∧
      file.value (Controller.reprogram st (Pll.adjustable h) p s) =
        written .found p.slots (file.value s) := by
  obtain ⟨s', hrun, hplain, hvalue⟩ := Pll.writes_program file hp .found hs
  unfold Controller.reprogram
  rw [show (Pll.adjustable h).program p .found s = (.ok (), s') from hrun]
  exact ⟨hplain, hvalue⟩

variable (file) in
theorem program_plain {p : Pll} (hp : p.isPlain) (v : Version) {s : σ} (hs : file.plain s) :
    file.plain ((Pll.adjustable h).program p v s).2 ∧
      file.value ((Pll.adjustable h).program p v s).2 = written v p.slots (file.value s) := by
  obtain ⟨s', hrun, hplain, hvalue⟩ := Pll.writes_program file hp v hs
  rw [show (Pll.adjustable h).program p v s = (.ok (), s') from hrun]
  exact ⟨hplain, hvalue⟩

theorem Guarded.capture (hg : Guarded file addrs c r) {x : Except Failure Unit} {d : Pll}
    (hphase : c.progress.phase.isResting)
    (hr : (Pll.adjustable h).recorded.capture c.device r = ((x, d), r')) :
    Guarded file addrs { c with device := d } r' ∧
      (x = .ok () → FoundIn file d r.world) ∧ lastCapture? r'.events = some r.world := by
  obtain ⟨hrun, hevents⟩ := recorded_capture hr
  obtain ⟨hsame, hp, ha, hread⟩ := Pll.captures hg.isPlain hg.plain hrun
  refine ⟨⟨hsame.1, hp, ha.trans hg.places, fun hu => ?_, fun ho => ?_, ?_⟩, fun hx y hy => ?_, ?_⟩
  · exact absurd ((Phase.isUnderway_of_resting hphase).symm.trans hu) Bool.false_ne_true
  · exact absurd ((Phase.isOwing_of_resting hphase).symm.trans ho) Bool.false_ne_true
  · rw [hevents]
    exact .cons trivial hg.restores
  · exact (hread hx y hy).1
  · rw [hevents]
    rfl

theorem guarded_step {K : Pll → Prop} {x : Scope σ}
    (hout : ∀ f, x.outside f → ∀ s, file.plain s → file.Same s (f s))
    (a b : Controller Pll × Recorded Pll σ)
    (hstep : Controller.Step (st.recorded Pll) (Pll.adjustable h).recorded K (x.recorded Pll) a b)
    (hg : Guarded file addrs a.1 a.2) : Guarded file addrs b.1 b.2 := by
  cases hstep with
  | noticed n hn =>
    rw [recorded_report hn]
    exact hg.quiet (file.report n hg.plain) rfl rfl id id
  | asked signal => exact hg.quiet (file.stopRequested signal hg.plain) rfl rfl id id
  | paused ms => exact hg.quiet (file.pause ms hg.plain) rfl rfl id id
  | elapsed => exact hg.quiet (file.elapse hg.plain) rfl rfl id id
  | @refused c r clock e r' hr =>
    obtain ⟨hrun, hevents⟩ := recorded_retune hr
    exact hg.quiet (Pll.same_retune hg.isPlain hg.plain hrun) hevents rfl id id
  | tried clock _ hr => exact hg.retune hr
  | @moved c r clock d r' _ _ hr =>
    have hg' := hg.retune hr
    exact hg'.programmed (program_plain file hg'.isPlain .proposed hg'.plain).1 d .proposed r'.world
  | looked _ hphase hr => exact (hg.capture hphase hr).1
  | @began c r d r' _ hphase hr =>
    obtain ⟨hg', hfound, hlast⟩ := hg.capture hphase hr
    exact ⟨hg'.plain, hg'.isPlain, hg'.places, fun _ => ⟨_, hlast, hfound rfl⟩, nofun, hg'.restores⟩
  | planned _ _ _ _ hphase => exact hg.quiet (.refl hg.plain) rfl rfl (fun _ => hphase) nofun
  | entered hphase => exact hg.quiet (.refl hg.plain) rfl rfl (fun _ => hphase) nofun
  | @undone c r hphase _ =>
    have hg' : Guarded file addrs (c.update .finish) r :=
      hg.quiet (.refl hg.plain) rfl rfl nofun nofun
    exact hg'.programmed (program_plain file hg.isPlain .found hg.plain).1 c.device .found r.world
  | finished _ => exact hg.quiet (.refl hg.plain) rfl rfl nofun nofun
  | @armed c r delayMs id r' hphase _ hr =>
    have hsame := file.armTimer delayMs (c.progress.generation + 1) hg.plain
    cases hr
    exact ⟨hsame.1, hg.isPlain, hg.places, nofun, fun _ => hg.underway hphase,
      .cons trivial hg.restores⟩
  | retargeted _ _ => exact hg.quiet (.refl hg.plain) rfl rfl id id
  | @taken c r hc =>
    rw [recorded_disarm]
    refine hg.quiet (disarm_plain c.progress hg.plain) rfl rfl nofun fun _ => ?_
    rw [Controller.isArmed_iff.mp hc]
    rfl
  | @restored c r hphase _ =>
    obtain ⟨hplain, hvalue⟩ := reprogram_plain file hg.isPlain hg.plain
    obtain ⟨b, hb, hfound⟩ := hg.owing (by rw [hphase]; rfl)
    have hsame := file.report (AdjustmentNotice.restored c.progress.foundClock) hplain
    rw [recorded_restore]
    refine ⟨hsame.1, hg.isPlain, hg.places, nofun, nofun,
      .cons ⟨b, hb, fun a ha => ?_⟩ (.cons trivial hg.restores)⟩
    rw [hvalue]
    exact value_of_foundIn hfound _ (hg.places ▸ ha)
  | outside g hg' =>
    obtain ⟨f, hf, rfl⟩ := hg'
    exact hg.quiet (hout f hf _ hg.plain) rfl rfl id id

end

end Retune
