import Retune.Pll.Open
import Retune.Proofs.BenchFile
import Retune.Proofs.Guards

/-!
# Adjustable outputs and their PLLs

As long as the registers stay as they are, an output that is listed as adjustable leads
to a PLL of its family, unless its mux selects a DPLL that the platform does not have:
the list does not look at what the mux selects. No Combo output whose PLL can be opened
is left out.
-/

namespace Retune

/-! ## What registers say about outputs -/

namespace Output

def isGated (o : Output) (f : UInt32 → UInt32) : Bool := f o.route &&& (1 <<< o.gateBit) != 0

def dpll (o : Output) (f : UInt32 → UInt32) : UInt8 := ((f o.route >>> o.muxShift) &&& 3).toUInt8

def pll? (o : Output) (f : UInt32 → UInt32) : Option UInt8 :=
  if o.family = .combo then if o.isGated f then none else some (o.dpll f)
  else if o.pllNumber < 256 then some o.pllNumber.toUInt8
  else none

/-- The divider register of a DKL PHY reads as programmed. -/
def isPowered (f : UInt32 → UInt32) (phy : UInt8) : Bool :=
  f (DklPll.registerAddr phy .div0) != 0 && f (DklPll.registerAddr phy .div0) != 0xFFFFFFFF

def powered (f : UInt32 → UInt32) : List UInt8 :=
  ((List.range Probe.dklCount).map UInt8.ofNat).filter (isPowered f)

def isListed (o : Output) (f : UInt32 → UInt32) : Bool :=
  match o.family with
  | .combo => (o.pll? f).isSome
  | .dkl => (o.pll? f).any (powered f).contains
  | .c10 | .c20 | .dpMn => true

theorem dpll_le (o : Output) (f : UInt32 → UInt32) : (o.dpll f).toNat ≤ 3 := by
  have hle : ((f o.route >>> o.muxShift) &&& 3).toNat ≤ 3 :=
    UInt32.le_iff_toNat_le.mp UInt32.and_le_right
  unfold dpll
  rw [UInt32.toNat_toUInt8]
  omega

theorem of_mem_outputs {platform : Platform} {o : Output} (ho : o ∈ platform.outputs) :
    o.family ≠ .dpMn ∧ o.pllNumber < 256 := by
  have hall : ∀ o ∈ platform.outputs, o.family ≠ .dpMn ∧ o.pllNumber < 256 := by
    cases platform <;> decide
  exact hall o ho

theorem dpll_lt {platform : Platform} {o : Output} (ho : o ∈ platform.outputs)
    (hplatform : platform ≠ .tgl) (hcombo : o.family = .combo) (f : UInt32 → UInt32) :
    (o.dpll f).toNat < platform.dplls.length := by
  have hall : ∀ o ∈ platform.outputs, o.family = .combo → platform.dplls.length = 4 := by
    cases platform with
    | tgl => exact absurd rfl hplatform
    | adlS | mtl => decide
  rw [hall o ho hcombo]
  exact Nat.lt_succ_of_le (o.dpll_le f)

section
variable {f : UInt32 → UInt32} {o : Output} (hlisted : o.isListed f = true)
include hlisted

theorem pll?_of_routed (hcombo : o.family = .combo) : o.pll? f = some (o.dpll f) := by
  unfold isListed at hlisted
  rw [hcombo] at hlisted
  have hsome : (o.pll? f).isSome = true := hlisted
  unfold pll? at hsome ⊢
  rw [if_pos hcombo] at hsome ⊢
  split at hsome
  · cases hsome
  · next hgated => exact if_neg hgated

theorem pll?_of_listed (hnumber : o.pllNumber < 256) :
    ∃ index, o.pll? f = some index ∧ (o.family = .combo → index = o.dpll f) := by
  by_cases hcombo : o.family = .combo
  · exact ⟨o.dpll f, pll?_of_routed hlisted hcombo, fun _ => rfl⟩
  · refine ⟨o.pllNumber.toUInt8, ?_, fun h => absurd h hcombo⟩
    unfold pll?
    rw [if_neg hcombo, if_pos hnumber]

end

end Output

namespace RegisterFile
variable {σ α β : Type} {h : Host σ} {st : Station σ} (file : RegisterFile h st)

/-- On registers that hold `f` the call answers `a` and leaves them as they are. -/
def Finds (f : UInt32 → UInt32) (x : StateM σ α) (a : α) : Prop :=
  ∀ s : σ, file.plain s → file.value s = f →
    (x s).1 = a ∧ file.plain (x s).2 ∧ file.value (x s).2 = f

variable {file} {f : UInt32 → UInt32}

theorem finds_pure (a : α) : file.Finds f (pure a) a :=
  fun _ hs hf => ⟨rfl, hs, hf⟩

theorem finds_bind {x : StateM σ α} {k : α → StateM σ β} {a : α} {b : β} (hx : file.Finds f x a)
    (hk : file.Finds f (k a) b) : file.Finds f (x >>= k) b := by
  intro s hs hf
  obtain ⟨ha, hs', hf'⟩ := hx s hs hf
  have hrun : (x >>= k) s = k a (x s).2 := congrArg (fun a => k a (x s).2) ha
  rw [hrun]
  exact hk _ hs' hf'

theorem finds_read (addr : UInt32) : file.Finds f (h.read addr) (f addr) := by
  intro s hs hf
  have hread : _ ∧ file.Same s (h.read addr s).2 := RegisterFile.read addr hs
  obtain ⟨hvalue, hplain, hsame⟩ := hread
  exact ⟨hvalue.trans (congrFun hf addr), hplain, hsame.trans hf⟩

theorem finds_report (n : Notice) : file.Finds f (h.report n) ⟨⟩ := by
  intro s hs hf
  obtain ⟨hplain, hsame⟩ := file.hostReport n hs
  exact ⟨rfl, hplain, hsame.trans hf⟩

theorem finds_filterM {p : α → StateM σ Bool} {q : α → Bool} (hp : ∀ x, file.Finds f (p x) (q x))
    (l : List α) : file.Finds f (l.filterM p) (l.filter q) := by
  -- what was kept so far stands in reverse
  have hkept : ∀ l kept : List α, file.Finds f (l.filterAuxM p kept) ((l.filter q).reverse ++ kept) := by
    intro l
    induction l with
    | nil => exact fun kept => finds_pure kept
    | cons x l ih =>
      intro kept
      refine finds_bind (hp x) ?_
      have hrest := ih (bif q x then x :: kept else kept)
      cases hq : q x with
      | true =>
        rw [hq] at hrest
        rw [List.filter_cons_of_pos hq, List.reverse_cons, List.append_assoc]
        exact hrest
      | false =>
        rw [hq] at hrest
        rw [List.filter_cons_of_neg (Bool.not_eq_true _ ▸ hq)]
        exact hrest
  unfold List.filterM
  refine finds_bind (hkept l []) ?_
  rw [List.append_nil, List.reverse_reverse]
  exact finds_pure _

end RegisterFile

namespace Probe
variable {σ : Type} {h : Host σ} {st : Station σ} {file : RegisterFile h st} {f : UInt32 → UInt32}

open RegisterFile

theorem finds_pllIndex (o : Output) : file.Finds f (pllIndex? h o) (o.pll? f) := by
  unfold pllIndex? Output.pll?
  split
  · refine finds_bind (finds_read o.route) ?_
    split
    · next hgated =>
      rw [if_pos (show o.isGated f = true from hgated)]
      exact finds_bind (finds_report _) (finds_pure none)
    · next hgated =>
      rw [if_neg (show ¬ o.isGated f = true from hgated)]
      exact finds_pure _
  · split <;> exact finds_pure _

theorem finds_powered : file.Finds f (poweredDkl h) (Output.powered f) := by
  have hpowered (phy : UInt8) : file.Finds f (isDklPowered h phy) (Output.isPowered f phy) :=
    finds_bind (finds_read _) (finds_pure _)
  exact finds_bind (finds_filterM hpowered _) (finds_bind (finds_report _) (finds_pure _))

theorem finds_adjustable (platform : Platform) : file.Finds f (adjustableOutputs h platform)
    (platform.outputs.filter fun o => o.isListed f) := by
  refine finds_bind finds_powered (finds_filterM (fun o => ?_) platform.outputs)
  unfold isAdjustable Output.isListed
  cases o.family with
  | combo | dkl => exact finds_bind (finds_pllIndex o) (finds_pure _)
  | c10 | c20 | dpMn => exact finds_pure true

end Probe

/-! ## Opening what is listed -/

namespace Pll
variable {σ : Type} {h : Host σ} {st : Station σ} {file : RegisterFile h st} {o : Output}
  {platform : Platform} {index : UInt8} {s : σ}

def opened (x : Holding Registry σ OpenPll) (s : σ) : Except Failure Pll :=
  (x.run .empty s).1.1.map OpenPll.pll

def openedFor (h : Host σ) (o : Output) (platform : Platform) (s : σ) : Except Failure Pll :=
  opened (openFor h o platform) s

theorem opened_owned (p : Pll) (s : σ) : opened (owned h p) s = .ok p := by
  have hkey : p.key ∉ ([] : List Guard).map Guard.key := List.not_mem_nil
  obtain ⟨place, r', hclaim, -, -⟩ := Registry.heldBy_empty.claim_free hkey (.inr (by decide))
  unfold opened owned
  rw [run_andThen, claimPll_granted _ hclaim]
  rfl

theorem openIndex_answer (hlink : o.family ≠ .dpMn)
    (hrange : o.family = .combo → index.toNat < platform.dplls.length) (s : σ) :
    ∃ p, opened (openIndex h o platform index) s = .ok p ∧ p.family = o.family := by
  unfold openIndex
  cases hfamily : o.family with
  | combo =>
    dsimp only
    rw [List.getElem?_eq_getElem (hrange hfamily)]
    exact ⟨_, opened_owned _ s, rfl⟩
  | dkl | c10 | c20 => exact ⟨_, opened_owned _ s, rfl⟩
  | dpMn => exact absurd hfamily hlink

theorem openIndex_beyond (hcombo : o.family = .combo)
    (hbeyond : platform.dplls.length ≤ index.toNat) (s : σ) :
    opened (openIndex h o platform index) s =
      .error (.invalidArgument "DPLL index out of range") := by
  unfold openIndex
  rw [hcombo]
  dsimp only
  rw [List.getElem?_eq_none hbeyond]
  rfl

theorem openedFor_eq (platform : Platform) (hs : file.plain s) :
    ∃ s', openedFor h o platform s =
      match o.pll? (file.value s) with
      | none => .error .noPll
      | some index => opened (openIndex h o platform index) s' := by
  obtain ⟨hfound, -⟩ := Probe.finds_pllIndex o s hs rfl
  unfold openedFor opened openFor
  rw [run_andThen, run_call, hfound]
  cases o.pll? (file.value s) with
  | none => exact ⟨s, rfl⟩
  | some index => exact ⟨_, rfl⟩

section
variable (hs : file.plain s)
include hs

theorem openedFor_within (ho : o ∈ platform.outputs) (hlisted : o.isListed (file.value s) = true)
    (hrange : o.family = .combo → (o.dpll (file.value s)).toNat < platform.dplls.length) :
    ∃ p, openedFor h o platform s = .ok p ∧ p.family = o.family := by
  obtain ⟨hlink, hnumber⟩ := Output.of_mem_outputs ho
  obtain ⟨index, hindex, hmuxed⟩ := Output.pll?_of_listed hlisted hnumber
  obtain ⟨s', hopened⟩ := openedFor_eq platform hs
  rw [hopened, hindex]
  exact openIndex_answer hlink (fun hcombo => hmuxed hcombo ▸ hrange hcombo) s'

theorem openedFor_beyond (hlisted : o.isListed (file.value s) = true) (hcombo : o.family = .combo)
    (hbeyond : platform.dplls.length ≤ (o.dpll (file.value s)).toNat) :
    openedFor h o platform s = .error (.invalidArgument "DPLL index out of range") := by
  have hindex := Output.pll?_of_routed hlisted hcombo
  obtain ⟨s', hopened⟩ := openedFor_eq platform hs
  rw [hopened, hindex]
  exact openIndex_beyond hcombo hbeyond s'

theorem isListed_of_opened {p : Pll} (hcombo : o.family = .combo)
    (hopened : openedFor h o platform s = .ok p) : o.isListed (file.value s) = true := by
  obtain ⟨s', hanswer⟩ := openedFor_eq platform hs
  unfold Output.isListed
  rw [hcombo]
  cases hindex : o.pll? (file.value s) with
  | some index => rfl
  | none =>
    rw [hindex, hopened] at hanswer
    cases hanswer

end

end Pll

/-- Listing outputs leaves the registers as they are. While they stay so, an output that
is listed leads to a PLL of its family, unless its mux selects a DPLL that the platform
does not have. Only TGL lacks one. A Combo output whose PLL can be opened is listed. -/
theorem listed_outputs_open_iff {σ : Type} {h : Host σ} {st : Station σ} (file : RegisterFile h st)
    {s : σ} (hs : file.plain s) (platform : Platform) :
    let listed := (Probe.adjustableOutputs h platform s).1
    file.Same s (Probe.adjustableOutputs h platform s).2 ∧
    (∀ o ∈ listed, ∀ s', file.Same s s' →
      ((∃ p, Pll.openedFor h o platform s' = .ok p ∧ p.family = o.family) ↔
        (o.family = .combo → (o.dpll (file.value s)).toNat < platform.dplls.length)) ∧
      (platform ≠ .tgl → ∃ p, Pll.openedFor h o platform s' = .ok p ∧ p.family = o.family) ∧
      ∀ e, Pll.openedFor h o platform s' = .error e →
        e = .invalidArgument "DPLL index out of range") ∧
    ∀ o ∈ platform.outputs, o.family = .combo → ∀ s' p, file.Same s s' →
      Pll.openedFor h o platform s' = .ok p → o ∈ listed := by
  intro listed
  obtain ⟨hlisted, hsame⟩ := Probe.finds_adjustable platform s hs rfl
  have hmem (o : Output) :
      o ∈ listed ↔ o ∈ platform.outputs ∧ o.isListed (file.value s) = true := by
    show o ∈ (Probe.adjustableOutputs h platform s).1 ↔ _
    rw [hlisted, List.mem_filter]
  refine ⟨hsame, fun o ho s' hs' => ?_, fun o ho hcombo s' p hs' hopened => ?_⟩
  · obtain ⟨houtput, hlists⟩ := (hmem o).mp ho
    rw [← hs'.2] at hlists ⊢
    by_cases hrange : o.family = .combo → (o.dpll (file.value s')).toNat < platform.dplls.length
    · have hopens := Pll.openedFor_within hs'.1 houtput hlists hrange
      refine ⟨iff_of_true hopens hrange, fun _ => hopens, fun e he => ?_⟩
      obtain ⟨p, hp, -⟩ := hopens
      rw [hp] at he
      cases he
    · obtain ⟨hcombo, hbeyond⟩ := Classical.not_imp.mp hrange
      have hrefused := Pll.openedFor_beyond hs'.1 hlists hcombo (Nat.le_of_not_lt hbeyond)
      rw [hrefused]
      refine ⟨iff_of_false (fun ⟨p, hp, _⟩ => nomatch hp) hrange, fun hplatform => ?_,
        fun e he => (Except.error.inj he).symm⟩
      exact absurd (Output.dpll_lt houtput hplatform hcombo _) hbeyond
  · have hlists := Pll.isListed_of_opened hs'.1 hcombo hopened
    rw [hs'.2] at hlists
    exact (hmem o).mpr ⟨ho, hlists⟩

/-- A bench on which the clocks of all outputs are on and the mux of the first selects a
fourth DPLL. -/
def Bench.ofFourthDpll : Bench :=
  { blank 0 with hardware := (Hardware.blank 0).setRegister 0x164280 3 }

theorem Bench.plain_ofFourthDpll : ofFourthDpll.Plain := ⟨rfl, fun _ => rfl, fun _ => rfl⟩

theorem listed_outputs_open_iff_second : ∃ o : Output, o.name = "DDI_B" ∧
    o ∈ (Probe.adjustableOutputs Bench.host .tgl Bench.ofFourthDpll).1 ∧
      ∃ p, Pll.openedFor Bench.host o .tgl Bench.ofFourthDpll = .ok p ∧ p.family = .combo := by
  have hlisted : Platform.tgl.outputs[1] ∈
      (Probe.adjustableOutputs Bench.host .tgl Bench.ofFourthDpll).1 := by decide +kernel
  have hopens := (listed_outputs_open_iff (Bench.file 0 .byHand) Bench.plain_ofFourthDpll
    .tgl).2.1 _ hlisted Bench.ofFourthDpll (.refl Bench.plain_ofFourthDpll)
  exact ⟨_, rfl, hlisted, hopens.1.mpr fun _ => by decide +kernel⟩

/-- The first output is listed as well, but has no DPLL to open. -/
theorem listed_output_not_opened : ∃ o : Output, o.name = "DDI_A" ∧
    o ∈ (Probe.adjustableOutputs Bench.host .tgl Bench.ofFourthDpll).1 ∧
      Pll.openedFor Bench.host o .tgl Bench.ofFourthDpll =
        .error (.invalidArgument "DPLL index out of range") := by
  have hplain : (Bench.file 0 .byHand).plain Bench.ofFourthDpll := Bench.plain_ofFourthDpll
  have hlisted : Platform.tgl.outputs[0].isListed
      ((Bench.file 0 .byHand).value Bench.ofFourthDpll) = true := by decide +kernel
  have hbeyond : Platform.tgl.dplls.length ≤ (Platform.tgl.outputs[0].dpll
      ((Bench.file 0 .byHand).value Bench.ofFourthDpll)).toNat := by decide +kernel
  exact ⟨_, rfl, by decide +kernel, Pll.openedFor_beyond hplain hlisted rfl hbeyond⟩

end Retune
