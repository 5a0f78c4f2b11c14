import Retune.Pll.Open
import Retune.Proofs.Chains

/-!
# The view a controller has of its registers

While it is armed a controller takes its proposals for what the registers hold.
On plain registers with no other writer they are the same, as long as no walk
that programs nothing has changed the proposals.
-/

namespace Retune

open Controller

variable {σ : Type} {h : Host σ} {st : Station σ} {file : RegisterFile h st}

/-! ## Words -/

/-- The clock that the words of plain registers encode, in the order in which
they are written. -/
def Family.clockOf : Family → List UInt32 → Float
  | .combo, [cfgcr0, _] => ComboClock.ofWord cfgcr0
  | .dkl, [div0, _, bias, _, _] => DklClock.ofWords div0 bias
  | .dpMn, [m, _] => Scalar.ofNat m.toNat
  | _, _ => 0.0

namespace Pll

def words (p : Pll) (v : Version) : List UInt32 := p.slots.map (·.value v)

def clockIn (p : Pll) (f : UInt32 → UInt32) : Float := p.family.clockOf (p.addrs.map f)

theorem clock_eq {p : Pll} (hp : p.isPlain) (v : Version) :
    p.clock v = p.family.clockOf (p.words v) := by
  cases p with
  | combo p | dkl p | dpMn p => rfl
  | c10 p | c20 p => cases hp

theorem family_capture {p p' : Pll} {r : Except Failure Unit} {s s' : σ}
    (hcapture : Pll.capture h p s = ((r, p'), s')) : p'.family = p.family := by
  cases p <;> cases hcapture <;> rfl

theorem family_retune (p : Pll) (clock : Float) :
    Answers (p.retune h clock) fun q => q.family = p.family := by
  rw [retune_eq]
  cases p with
  | combo p | dkl p | c10 p | c20 p | dpMn p => exact answers_map fun _ _ _ _ => rfl

end Pll

/-- The registers hold what is proposed. -/
def InSync (file : RegisterFile h st) (p : Pll) (s : σ) : Prop :=
  p.words .proposed = p.addrs.map (file.value s)

theorem InSync.of_same {p : Pll} {s s' : σ} (hp : InSync file p s) (hs : file.Same s s') :
    InSync file p s' := by
  unfold InSync
  rw [hs.2]
  exact hp

theorem InSync.clock {p : Pll} (hp : p.isPlain) {s : σ} (hsync : InSync file p s) :
    p.clock .proposed = p.clockIn (file.value s) := by
  rw [Pll.clock_eq hp, hsync]
  rfl

theorem words_of_isRead {p : Pll} {f : UInt32 → UInt32} (hread : ∀ x ∈ p.slots, x.IsRead f)
    (v : Version) : p.words v = p.addrs.map f := by
  unfold Pll.words Pll.addrs
  rw [List.map_map]
  refine List.map_congr_left fun x hx => ?_
  obtain ⟨hfound, hproposed⟩ := hread x hx
  cases v with
  | found => exact hfound
  | proposed => exact hproposed

theorem words_of_written {p : Pll} (hp : p.addrs.Nodup) (v : Version) (f : UInt32 → UInt32) :
    p.words v = p.addrs.map (written v p.slots f) := by
  unfold Pll.words Pll.addrs
  rw [List.map_map]
  exact List.map_congr_left fun x hx => (written_of_nodup hp f hx).symm

/-! ## Addresses -/

theorem DklPll.nodup_addrs (index : UInt8) : (Pll.dkl (.ofIndex index)).addrs.Nodup := by
  have haddrs : (Pll.dkl (.ofIndex index)).addrs =
      (DklRegister.writeOrder.map DklRegister.offset).map (DklPll.base index + ·) := rfl
  rw [haddrs]
  exact List.Nodup.map (fun _ _ heq => (UInt32.add_right_inj _).mp heq) (by decide)

theorem LinkRatio.nodup_addrs (pipe : UInt8) : (Pll.dpMn (.ofPipe pipe)).addrs.Nodup := by
  have haddrs : (Pll.dpMn (.ofPipe pipe)).addrs =
      [LinkRatio.mRegister pipe, LinkRatio.mRegister pipe + 4] := rfl
  rw [haddrs, List.nodup_cons, List.mem_singleton]
  refine ⟨fun heq => ?_, List.nodup_singleton _⟩
  have hzero : LinkRatio.mRegister pipe + 0 = LinkRatio.mRegister pipe + 4 :=
    (UInt32.add_zero _).trans heq
  exact absurd ((UInt32.add_right_inj _).mp hzero) (by decide)

theorem ComboPll.nodup_addrs {platform : Platform} {regs : DpllPair} (hregs : regs ∈ platform.dplls)
    (index : UInt8) : (Pll.combo (.ofRegisters index regs)).addrs.Nodup := by
  have hall : ∀ regs ∈ platform.dplls, [regs.cfgcr0, regs.cfgcr1].Nodup := by
    cases platform <;> decide
  exact hall regs hregs

theorem nodup_open (o : Output) (platform : Platform) (index : UInt8) (registry : Registry) (s : σ) :
    Reaches (fun _ _ => True) (Pll.openIndex h o platform index).run registry s
      (ending (fun p _ _ => p.pll.addrs.Nodup) fun _ _ _ => True) := by
  have howned {p : Pll} (hp : p.addrs.Nodup) (registry : Registry) (s : σ) :
      Reaches (fun _ _ => True) (Pll.owned h p).run registry s
        (ending (fun p _ _ => p.pll.addrs.Nodup) fun _ _ _ => True) := by
    refine reaches_andThen (Reaches.mono (Q := fun _ _ _ => True) ⟨anywhere, trivial⟩ ?_)
    intro x registry s _
    cases x with
    | error e => trivial
    | ok g => exact reaches_ok hp
  unfold Pll.openIndex
  cases o.family with
  | combo =>
    dsimp only
    cases hregs : platform.dplls[index.toNat]? with
    | none => exact reaches_throw trivial
    | some regs => exact howned (ComboPll.nodup_addrs (List.mem_of_getElem? hregs) index) _ _
  | dkl => exact howned (DklPll.nodup_addrs index) _ _
  | c10 => exact howned (p := .c10 (.ofBus (.ofPort o.port))) List.nodup_nil _ _
  | c20 => exact howned (p := .c20 (.ofBus (.ofPort o.port))) List.nodup_nil _ _
  | dpMn =>
    dsimp only
    unfold Pll.openLink
    split
    · exact reaches_andThen (reaches_call anywhere (reaches_andThen (reaches_throw trivial)))
    · exact howned (LinkRatio.nodup_addrs index) _ _

/-! ## Steps -/

structure Placed (file : RegisterFile h st) (p : Pll) (c : Controller Pll) (s : σ) : Prop where
  plain : file.plain s
  isPlain : c.device.isPlain
  family : c.device.family = p.family
  addrs : c.device.addrs = p.addrs

variable {p : Pll} {c c' : Controller Pll} {s s' : σ}

theorem Placed.of_eq (hp : Placed file p c s) (hs : file.plain s') (hd : c'.device = c.device) :
    Placed file p c' s' := by
  obtain ⟨-, hplain, hfamily, haddrs⟩ := hp
  rw [← hd] at hplain hfamily haddrs
  exact ⟨hs, hplain, hfamily, haddrs⟩

theorem Placed.clockIn (hp : Placed file p c s) (f : UInt32 → UInt32) :
    c.device.clockIn f = p.clockIn f := by
  unfold Pll.clockIn
  rw [hp.family, hp.addrs]

theorem Placed.retune (hp : Placed file p c s) {clock : Float} {d : Pll}
    (hr : (Pll.adjustable h).retune c.device clock s = (.ok d, s')) :
    Placed file p { c with device := d } s' := by
  obtain ⟨hplain, hfound⟩ := Pll.found_retune hp.isPlain clock _ _ _ hr
  have hfamily := Pll.family_retune c.device clock _ _ _ hr
  exact ⟨(Pll.same_retune hp.isPlain hp.plain hr).1, hplain, hfamily.trans hp.family,
    hfound.addrs_eq.trans hp.addrs⟩

theorem Placed.capture (hp : Placed file p c s) {x : Except Failure Unit} {d : Pll}
    (hr : (Pll.adjustable h).capture c.device s = ((x, d), s')) :
    Placed file p { c with device := d } s' ∧ file.Same s s' ∧
      (x = .ok () → ∀ v, d.words v = d.addrs.map (file.value s)) := by
  obtain ⟨hsame, hplain, haddrs, hread⟩ := Pll.captures hp.isPlain hp.plain hr
  have hfamily := Pll.family_capture hr
  exact ⟨⟨hsame.1, hplain, hfamily.trans hp.family, haddrs.trans hp.addrs⟩, hsame,
    fun hx => words_of_isRead (hread hx)⟩

theorem placed_step {K : Pll → Prop} {x : Scope σ}
    (hout : ∀ f, x.outside f → ∀ s, file.plain s → file.Same s (f s))
    (a b : Controller Pll × σ) (hstep : Step st (Pll.adjustable h) K x a b)
    (ha : Placed file p a.1 a.2) : Placed file p b.1 b.2 := by
  have hplain := ha.plain
  cases hstep with
  | noticed n hn => exact ha.of_eq (file.report n hplain).1 rfl
  | asked signal => exact ha.of_eq (file.stopRequested signal hplain).1 rfl
  | paused ms => exact ha.of_eq (file.pause ms hplain).1 rfl
  | elapsed => exact ha.of_eq (file.elapse hplain).1 rfl
  | refused clock hr => exact ha.of_eq (Pll.same_retune ha.isPlain hplain hr).1 rfl
  | tried clock _ hr => exact ha.retune hr
  | moved clock _ _ hr =>
    have hd := ha.retune hr
    exact hd.of_eq (program_plain file hd.isPlain .proposed hd.plain).1 rfl
  | looked _ _ hr => exact (ha.capture hr).1
  | began _ _ hr => exact (ha.capture hr).1.of_eq (ha.capture hr).1.plain rfl
  | planned | entered | finished | retargeted => exact ha.of_eq hplain rfl
  | undone => exact ha.of_eq (program_plain file ha.isPlain .found hplain).1 rfl
  | @armed c _ delayMs _ _ _ _ hr =>
    have hsame := file.armTimer delayMs (c.progress.generation + 1) hplain
    rw [hr] at hsame
    exact ha.of_eq hsame.1 rfl
  | taken => exact ha.of_eq (disarm_plain _ hplain).1 rfl
  | restored =>
    have hplain' := (reprogram_plain file ha.isPlain hplain).1
    exact ha.of_eq (file.report _ hplain').1 rfl
  | outside f ho => exact ha.of_eq (hout f ho _ hplain).1 rfl

structure Synced (file : RegisterFile h st) (p : Pll) (c : Controller Pll) (s : σ) : Prop where
  placed : Placed file p c s
  inSync : c.progress.phase.isUnderway ∨ c.isArmed → InSync file c.device s

theorem Synced.of_same (hc : Synced file p c s) (hs : file.Same s s') (hd : c'.device = c.device)
    (hphase : c'.progress.phase.isUnderway ∨ c'.isArmed → c.progress.phase.isUnderway ∨ c.isArmed) :
    Synced file p c' s' := by
  obtain ⟨hplaced, hsync⟩ := hc
  refine ⟨hplaced.of_eq hs.1 hd, fun h => ?_⟩
  rw [hd]
  exact (hsync (hphase h)).of_same hs

theorem Placed.synced {K : Pll → Prop} (hp : Placed file p c s) (hc : c.Settled K)
    (hsync : c.isArmed → InSync file c.device s) : Synced file p c s := by
  refine ⟨hp, fun h => ?_⟩
  obtain hu | harmed := h
  · refine hsync ?_
    rcases hc with hc | hc
    · exact absurd ((Phase.isUnderway_of_resting hc).symm.trans hu) Bool.false_ne_true
    · exact hc.1
  · exact hsync harmed

theorem synced_step {K : Pll → Prop} {x : Scope σ} (hp : p.addrs.Nodup) (htries : ¬ x.tries)
    (hout : ∀ f, x.outside f → ∀ s, file.plain s → file.Same s (f s))
    (a b : Controller Pll × σ) (hstep : Step st (Pll.adjustable h) K x a b)
    (ha : Synced file p a.1 a.2) : Synced file p b.1 b.2 := by
  have hplain := ha.placed.plain
  have hb := placed_step hout a b hstep ha.placed
  cases hstep with
  | noticed n hn => exact ha.of_same (file.report n hplain) rfl id
  | asked signal => exact ha.of_same (file.stopRequested signal hplain) rfl id
  | paused ms => exact ha.of_same (file.pause ms hplain) rfl id
  | elapsed => exact ha.of_same (file.elapse hplain) rfl id
  | refused clock hr => exact ha.of_same (Pll.same_retune ha.placed.isPlain hplain hr) rfl id
  | tried _ ho => exact absurd ho htries
  | @moved c s clock d s' _ _ hr =>
    have hd := ha.placed.retune hr
    refine ⟨hb, fun _ => ?_⟩
    have hnodup : d.addrs.Nodup := by
      rw [hd.addrs]
      exact hp
    -- no register is written twice, so each holds its own slot
    show d.words .proposed = _
    rw [(program_plain file hd.isPlain .proposed hd.plain).2]
    exact words_of_written hnodup .proposed _
  | looked _ hphase =>
    refine hb.synced (K := K) (.inl hphase) fun harmed => ?_
    have hrest := Phase.isOwing_of_resting hphase
    rw [isArmed_iff.mp harmed] at hrest
    cases hrest
  | @began c s d s' _ _ hr =>
    obtain ⟨-, hsame, hread⟩ := ha.placed.capture hr
    exact ⟨hb, fun _ => InSync.of_same (hread rfl .proposed) hsame⟩
  | planned _ _ _ _ hphase => exact ha.of_same (.refl hplain) rfl fun _ => .inl hphase
  | entered hphase => exact ha.of_same (.refl hplain) rfl fun _ => .inl hphase
  | undone | finished | restored => exact hb.synced (K := K) (.inl rfl) nofun
  | @armed c s delayMs id s' hphase _ hr =>
    have hsame := file.armTimer delayMs (c.progress.generation + 1) hplain
    rw [hr] at hsame
    exact ha.of_same hsame rfl fun _ => .inl hphase
  | retargeted => exact ha.of_same (.refl hplain) rfl id
  | taken => exact ⟨hb, nofun⟩
  | outside f ho => exact ha.of_same (hout f ho _ hplain) rfl id

theorem dry_step {x : Scope σ} (hcaptures : ¬ x.captures) (hcommits : ¬ x.commits)
    (hout : ∀ f, ¬ x.outside f) {s₀ : σ} (a b : Controller Pll × σ)
    (hstep : Step st (Pll.adjustable h) (fun _ => False) x a b)
    (ha : Placed file p a.1 a.2 ∧ file.Same s₀ a.2) :
    Placed file p b.1 b.2 ∧ file.Same s₀ b.2 := by
  refine ⟨placed_step (fun f hf => absurd hf (hout f)) a b hstep ha.1, ha.2.trans ?_⟩
  have hplain := ha.1.plain
  cases hstep with
  | noticed n hn => exact file.report n hplain
  | asked signal => exact file.stopRequested signal hplain
  | paused ms => exact file.pause ms hplain
  | elapsed => exact file.elapse hplain
  | refused clock hr => exact Pll.same_retune ha.1.isPlain hplain hr
  | tried clock _ hr => exact Pll.same_retune ha.1.isPlain hplain hr
  | moved clock ho => exact absurd ho (by rw [or_false]; exact hcommits)
  | looked ho | began ho => exact absurd ho hcaptures
  | planned | entered | finished | retargeted => exact .refl hplain
  | undone _ hk | armed _ _ hk | restored _ hk => exact hk.elim
  | taken => exact disarm_plain _ hplain
  | outside f ho => exact absurd ho (hout f)

/-! ## Runs -/

theorem dry_walk {m : Move} (hm : m.commit = false) (hc : Placed file p c s) :
    let left := Operation.leave st (Pll.adjustable h) [.walk m] c s
    left.1.progress = c.progress ∧ Placed file p left.1 left.2 ∧ file.Same s left.2 := by
  intro left
  have hl : Licensed (Operation.walk m : Operation σ).scope (fun _ : Pll => False) m c.device := by
    unfold Licensed
    rw [hm]
    exact hm
  have hcommits : ¬ (Operation.walk m : Operation σ).scope.commits := by
    intro ho
    exact absurd (hm.symm.trans ho) Bool.false_ne_true
  have hwalk := reaches_walkOf (s := s) st (Pll.adjustable h)
    (fun _ hk => hk) hl fun _ => trivial
  obtain ⟨d, hd, -⟩ := hwalk.post
  have hkeeps := hwalk.keeps (dry_step id hcommits fun _ => id) ⟨hc, .refl hc.plain⟩
  have hprogress : left.1.progress = c.progress := by
    show ((walk st (Pll.adjustable h) m).run c s).1.2.progress = _
    rw [hd]
  exact ⟨hprogress, hkeeps⟩

/-- A walk that programs nothing, on an armed controller, proposes what was
proposed before. -/
def Conserves (st : Station σ) (dev : Adjustable Pll σ) (op : Operation σ) (c : Controller Pll)
    (s : σ) : Prop :=
  ∀ m, op = .walk m → m.commit = false → c.isArmed →
    (Operation.leave st dev [op] c s).1.device.words .proposed = c.device.words .proposed

theorem synced_one {op : Operation σ} (hp : p.addrs.Nodup)
    (hout : ∀ f, op.scope.outside f → ∀ s, file.plain s → file.Same s (f s))
    (hc : c.Settled fun _ => True) (hs : Synced file p c s) :
    let left := Operation.leave st (Pll.adjustable h) [op] c s
    (left.1.isArmed → InSync file left.1.device left.2) ↔
      Conserves st (Pll.adjustable h) op c s := by
  intro left
  -- only a dry walk proposes without programming, and it leaves the registers alone
  by_cases htries : op.scope.tries
  · obtain ⟨m, rfl, hm⟩ : ∃ m, op = .walk m ∧ m.commit = false := by
      cases op with
      | walk m => exact ⟨m, rfl, htries⟩
      | _ => exact htries.elim
    obtain ⟨hprogress, hplaced, hsame⟩ := dry_walk hm hs.placed
    have harmed : left.1.isArmed = c.isArmed := congrArg Progress.isArmed hprogress
    have hregisters : left.1.device.addrs.map (file.value left.2) =
        c.device.addrs.map (file.value s) := by
      rw [hsame.2, hplaced.addrs, hs.placed.addrs]
    unfold InSync
    rw [harmed, hregisters]
    constructor
    · intro hsync _ _ _ h
      exact (hsync h).trans (hs.inSync (.inr h)).symm
    · intro hconserves h
      exact (hconserves m rfl hm h).trans (hs.inSync (.inr h))
  · have hleft := (Operation.reaches_perform (s := s) st (lasting_true h) op hc).keeps
      (synced_step hp htries hout) hs
    constructor
    · intro _ m hop hm
      rw [hop] at htries
      exact absurd hm htries
    · intro _ h
      exact hleft.inSync (.inr h)

theorem synced_along (hp : p.addrs.Nodup) :
    ∀ {ops : List (Operation σ)} {c : Controller Pll} {s : σ}, SoleWriter file ops →
      c.Settled (fun _ => True) → Synced file p c s →
        (Operation.Along st (Pll.adjustable h) (fun op c s =>
            let left := Operation.leave st (Pll.adjustable h) [op] c s
            left.1.isArmed → InSync file left.1.device left.2) ops c s ↔
          Operation.Along st (Pll.adjustable h) (Conserves st (Pll.adjustable h)) ops c s) ∧
        (Operation.Along st (Pll.adjustable h) (Conserves st (Pll.adjustable h)) ops c s →
          Synced file p (Operation.leave st (Pll.adjustable h) ops c s).1
            (Operation.leave st (Pll.adjustable h) ops c s).2)
  | [], _, _, _, _, hs => ⟨Iff.rfl, fun _ => hs⟩
  | op :: ops, c, s, hops, hc, hs => by
    have hout := hops.outside op List.mem_cons_self
    have hperform := Operation.reaches_perform (s := s) st (lasting_true h) op hc
    have hplaced := hperform.keeps (placed_step hout) hs.placed
    have hrest : SoleWriter file ops := fun f hf => hops f (List.mem_cons_of_mem op hf)
    have hone := synced_one hp hout hc hs
    dsimp only at hone
    unfold Operation.Along
    constructor
    -- the rest of the run is only compared where this operation leaves both in sync
    · rw [← hone]
      refine and_congr_right fun hsync => ?_
      exact (synced_along hp hrest hperform.post (hplaced.synced hperform.post hsync)).1
    · intro hall
      have hsynced := hplaced.synced hperform.post (hone.mpr hall.1)
      exact (synced_along hp hrest hperform.post hsynced).2 hall.2

/-! ## Clocks -/

theorem Synced.clock (hc : Synced file p c s) {clock : Float} {c₁ : Controller Pll} {s₁ : σ}
    (hclock : (Controller.clock (Pll.adjustable h)).run c s = ((.ok clock, c₁), s₁)) :
    clock = p.clockIn (file.value s) := by
  unfold Controller.clock at hclock
  rw [run_andThen, run_current] at hclock
  dsimp only at hclock
  split at hclock
  · next harmed =>
    cases hclock
    exact ((hc.inSync (.inr harmed)).clock hc.placed.isPlain).trans (hc.placed.clockIn _)
  · rw [run_andThen, capture_run] at hclock
    rcases hr : (Pll.adjustable h).capture c.device s with ⟨⟨e | u, d⟩, s'⟩ <;> rw [hr] at hclock
    · cases hclock
    · cases hclock
      obtain ⟨hd, -, hread⟩ := hc.placed.capture hr
      show d.clock .found = _
      rw [Pll.clock_eq hd.isPlain, hread rfl .found]
      exact hd.clockIn _

theorem moveTo_run {δ : Type} {dev : Adjustable δ σ} {c c₁ : Controller δ} {s s₁ : σ}
    {current target shift : Float} (waitMs : UInt64) (htarget : Scalar.isFrequency target)
    (hshift : ¬ (!Scalar.isNumber shift || decide (shift < 0.0)))
    (hclock : (Controller.clock dev).run c s = ((.ok current, c₁), s₁)) :
    (moveTo st dev target shift waitMs).run c s =
      (moveFrom st dev c.isArmed current target shift waitMs).run c₁ s₁ := by
  unfold moveTo
  rw [run_andThen, run_try, Environment.requireFrequency_run, if_pos htarget]
  dsimp only
  rw [run_andThen, run_try, Environment.requireShift_run, if_neg hshift]
  dsimp only
  rw [run_andThen, run_current]
  dsimp only
  rw [run_andThen, hclock]

/-- Over any run on plain registers, the registers hold what an armed controller
proposes exactly if no walk that programs nothing changes the proposals of an
armed one. Where they do, or where nothing is armed, a clock that is answered is
the one the registers encode, and a move starts from it. -/
theorem proposals_in_sync_iff (file : RegisterFile h st) (p : Pll) (hp : p.isPlain)
    (hnodup : p.addrs.Nodup) (signal : Signal) (ops : List (Operation σ))
    (hops : SoleWriter file ops) (s : σ) (hs : file.plain s) :
    let dev := Pll.adjustable h
    let conserves (op : Operation σ) (c : Controller Pll) (s : σ) : Prop :=
      ∀ m, op = .walk m → m.commit = false → c.isArmed →
        (Operation.leave st dev [op] c s).1.device.words .proposed = c.device.words .proposed
    let left := Operation.leave st dev ops (.ofDevice p signal) s
    (Operation.Along st dev (fun op c s =>
        let left := Operation.leave st dev [op] c s
        left.1.isArmed → InSync file left.1.device left.2) ops (.ofDevice p signal) s ↔
      Operation.Along st dev conserves ops (.ofDevice p signal) s) ∧
      (Operation.Along st dev conserves ops (.ofDevice p signal) s →
        left.1.isArmed → InSync file left.1.device left.2) ∧
      ((left.1.isArmed → InSync file left.1.device left.2) →
        ∀ clock c₁ s₁, (Controller.clock dev).run left.1 left.2 = ((.ok clock, c₁), s₁) →
          clock = p.clockIn (file.value left.2) ∧
            ∀ target shift waitMs, Scalar.isFrequency target →
              ¬ (!Scalar.isNumber shift || decide (shift < 0.0)) →
                (moveTo st dev target shift waitMs).run left.1 left.2 =
                  (moveFrom st dev left.1.isArmed (p.clockIn (file.value left.2)) target shift
                    waitMs).run c₁ s₁) := by
  intro dev conserves left
  have hstart : Synced file p (.ofDevice p signal) s := ⟨⟨hs, hp, rfl, rfl⟩, nofun⟩
  have hsettled : (Controller.ofDevice p signal).Settled fun _ => True := .inl rfl
  obtain ⟨hc, hplaced⟩ := Operation.leave_keeps (I := fun a => Placed file p a.1 a.2)
    (lasting_true h) ops (fun op hop => placed_step (hops.outside op hop)) hsettled hstart.placed
  obtain ⟨hiff, hend⟩ := synced_along hnodup hops hsettled hstart
  refine ⟨hiff, fun hall harmed => (hend hall).inSync (.inr harmed), ?_⟩
  intro hsync clock c₁ s₁ hclock
  have heq := (hplaced.synced hc hsync).clock hclock
  refine ⟨heq, fun target shift waitMs htarget hshift => ?_⟩
  rw [moveTo_run waitMs htarget hshift hclock, heq]

theorem proposals_in_sync_link :
    let p := Pll.dpMn (.ofPipe 0)
    let left := Operation.leave (Session.station 0 .byHand) (Pll.adjustable Bench.host)
      [.adjust .ofMillisecond] (.ofDevice p .session) Bench.ofLink
    left.1.isArmed ∧ InSync (Bench.file 0 .byHand) left.1.device left.2 ∧
      p.clockIn ((Bench.file 0 .byHand).value left.2) = 99500.0 := by
  have hsole : SoleWriter (Bench.file 0 .byHand) [.adjust .ofMillisecond] := by
    intro f hf
    cases List.mem_singleton.mp hf
  have hall := proposals_in_sync_iff (Bench.file 0 .byHand) (.dpMn (.ofPipe 0)) rfl (by decide)
    .session [.adjust .ofMillisecond] hsole Bench.ofLink Bench.plain_ofLink
  dsimp only at hall
  obtain ⟨-, hsync, -⟩ := hall
  refine ⟨by decide +kernel, hsync ⟨?_, trivial⟩ (by decide +kernel), by decide +kernel⟩
  exact nofun

/-- A walk that programs nothing leaves an armed link with proposals that its
registers do not hold, and the clock is taken from them. -/
theorem dry_walk_unsynced :
    let p := Pll.dpMn (.ofPipe 0)
    let dev := Pll.adjustable Bench.host
    let left := Operation.leave (Session.station 0 .byHand) dev
      [.adjust .ofMillisecond, .walk ⟨99500.0, 99000.0, 0.0, 0, false⟩] (.ofDevice p .session)
      Bench.ofLink
    left.1.isArmed ∧ ¬ InSync (Bench.file 0 .byHand) left.1.device left.2 ∧
      ((Controller.clock dev).run left.1 left.2).1.1.toOption = some 99000.0 ∧
        p.clockIn ((Bench.file 0 .byHand).value left.2) = 99500.0 := by
  intro p dev left
  refine ⟨by decide +kernel, ?_, by decide +kernel, by decide +kernel⟩
  unfold InSync
  decide +kernel

end Retune
