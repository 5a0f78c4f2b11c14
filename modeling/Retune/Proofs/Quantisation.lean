import Mathlib.Order.Bounds.Basic
import Retune.Proofs.DividerFields
import Retune.Proofs.RatioGrids

/-!
# Quantised clocks

The clocks of Combo, DKL and C20 PLLs with a fraction in use follow a ratio in two
fields. A retune meets every clock that can be encoded, comes within a unit of the
fraction to what lies between, and stops at the ends.
-/

namespace Retune

/-! ## Values that fit a field -/

namespace Field

theorem and_top {f : Field} (htop : f.top.toNat + 1 = 2 ^ f.width.toNat) {v : UInt32}
    (hv : v ≤ f.top) : v &&& f.top = v := by
  have hle : v.toNat ≤ f.top.toNat := UInt32.le_iff_toNat_le.mp hv
  have hmask : f.top.toNat = 2 ^ f.width.toNat - 1 := by omega
  apply UInt32.toNat_inj.mp
  rw [UInt32.toNat_and, hmask, Nat.and_two_pow_sub_one_eq_mod]
  exact Nat.mod_eq_of_lt (by omega)

theorem get_set_of_le {f : Field} (hf : f.Fits) (htop : f.top.toNat + 1 = 2 ^ f.width.toNat)
    (hend : f.low.toNat + f.width.toNat < 32) (word : UInt32) {v : UInt32} (hv : v ≤ f.top) :
    f.get (f.set word v) = v := by
  have hlow : f.low.toNat % 32 = f.low.toNat := Nat.mod_eq_of_lt (by omega)
  have hlt : v.toNat * 2 ^ f.low.toNat < 2 ^ 32 := by
    have hle : v.toNat ≤ f.top.toNat := UInt32.le_iff_toNat_le.mp hv
    calc v.toNat * 2 ^ f.low.toNat < 2 ^ f.width.toNat * 2 ^ f.low.toNat :=
          Nat.mul_lt_mul_of_pos_right (by omega) (Nat.two_pow_pos _)
      _ = 2 ^ (f.low.toNat + f.width.toNat) := by rw [← Nat.pow_add, Nat.add_comm]
      _ ≤ 2 ^ 32 := Nat.pow_le_pow_right (by decide) hend.le
  have hback : (v <<< f.low) >>> f.low = v := by
    apply UInt32.toNat_inj.mp
    rw [UInt32.toNat_shiftRight, UInt32.toNat_shiftLeft, hlow, Nat.shiftLeft_eq,
      Nat.mod_eq_of_lt hlt, Nat.shiftRight_eq_div_pow, Nat.mul_div_cancel _ (Nat.two_pow_pos _)]
  rw [get_set hf, and_top htop hv]
  unfold get
  rw [hback, and_top htop hv]

end Field

namespace C20Pll

theorem quotient_propose (p : C20Pll) (quot rem : UInt16) :
    (p.propose quot rem).quotient = p.quotient.propose quot := by
  unfold propose quotient
  rw [Vector.getElem_set_ne _ _ (by decide), Vector.getElem_set_self]

theorem remainder_propose (p : C20Pll) (quot rem : UInt16) :
    (p.propose quot rem).remainder = p.remainder.propose rem := by
  unfold propose remainder
  rw [Vector.getElem_set_self]

theorem denominator_propose (p : C20Pll) (quot rem : UInt16) :
    (p.propose quot rem).denominator = p.denominator := by
  unfold propose denominator
  rw [Vector.getElem_set_ne _ _ (by decide), Vector.getElem_set_ne _ _ (by decide)]

end C20Pll

/-! ## PLLs with a fraction -/

/-- The PLLs whose ratio is a whole part and a fraction. -/
inductive FractionalPll where
  | combo (p : ComboPll)
  | dkl (p : DklPll)
  | c20 (p : C20Pll)

namespace FractionalPll

def toPll : FractionalPll → Pll
  | combo p => .combo p
  | dkl p => .dkl p
  | c20 p => .c20 p

def tops : FractionalPll → UInt32 × UInt32
  | combo _ => (ComboClock.integer.top, ComboClock.fraction.top)
  | dkl _ => (DklClock.integer.top, DklClock.fraction.top)
  | c20 _ => (0xFFFF, 0xFFFF)

def fields (p : FractionalPll) (v : Version) : UInt32 × UInt32 :=
  match p with
  | combo p => (ComboClock.integer.get (p.cfgcr0.value v), ComboClock.fraction.get (p.cfgcr0.value v))
  | dkl p => (DklClock.integer.get (p.div0.value v), DklClock.fraction.get (p.bias.value v))
  | c20 p => ((p.quotient.value v).toUInt32, (p.remainder.value v).toUInt32)

def propose (p : FractionalPll) (fields : UInt32 × UInt32) : FractionalPll :=
  match p with
  | combo p => combo (p.propose fields.1 fields.2)
  | dkl p => dkl (p.propose fields.1 fields.2)
  | c20 p => c20 (p.propose fields.1.toUInt16 fields.2.toUInt16)

/-- A retune can move the clock. -/
def Tunable : FractionalPll → Prop
  | combo _ => True
  | dkl p => DklClock.preDivider.get p.div0.proposed ≠ 0
  | c20 p => p.dividers.fracEnabled = true ∧ p.denominator.found ≠ 0

section
variable {α : Type} [Scalar α]

def clock (p : FractionalPll) (v : Version) : α :=
  match p with
  | combo p => ComboClock.ofWord (p.cfgcr0.value v)
  | dkl p => DklClock.ofWords (p.div0.value v) (p.bias.value v)
  | c20 p => p.dividers.clock (p.quotient.value v) (p.remainder.value v) (p.denominator.value v)

def fieldsFor (p : FractionalPll) (target : α) : UInt32 × UInt32 :=
  match p with
  | combo _ => ComboClock.ratioFor target
  | dkl p => DklClock.ratioFor target (DklClock.preDivider.get p.div0.proposed)
  | c20 p =>
    let (quot, rest) := p.dividers.quotientFor target p.denominator.found
    (quot, Scalar.toField (Scalar.round rest) 0xFFFF)

def retuned (p : FractionalPll) (target : α) : Except Failure FractionalPll :=
  match p with
  | combo p =>
    if Scalar.isFrequency target then .ok ((combo p).propose ((combo p).fieldsFor target))
    else .error (.invalidArgument "DCO target")
  | dkl p =>
    if Scalar.isFrequency target then
      if DklClock.preDivider.get p.div0.proposed = 0 then
        .error (.invalidArgument "DKL pre-divider is zero")
      else .ok ((dkl p).propose ((dkl p).fieldsFor target))
    else .error (.invalidArgument "DKL target")
  | c20 p =>
    if Scalar.isFrequency target then .ok ((c20 p).propose ((c20 p).fieldsFor target))
    else .error (.invalidArgument "C20 target")

end

/-- In doubles this is what a retune answers, on any host. -/
theorem retune_answer {σ : Type} (h : Host σ) (p : FractionalPll) (target : Float) (s : σ) :
    ((p.toPll.retune h target).run s).1 = (p.retuned target).map toPll := by
  rw [Pll.retune_eq]
  by_cases hfrequency : Scalar.isFrequency target = true
  · have haccepted {β : Type} (f : β → Pll) (what : String) (k : Unit → Fallible σ β) :
        (f <$> (h.requireFrequency target what >>= k)).run s = (f <$> k ()).run s := by
      rw [map_run, map_run, run_then, Environment.requireFrequency_run, if_pos hfrequency]
    unfold retuned
    cases p with
    | combo p =>
      dsimp only
      rw [if_pos hfrequency]
      exact congrArg Prod.fst (haccepted Pll.combo _ _)
    | dkl p =>
      dsimp only
      rw [if_pos hfrequency]
      refine (congrArg Prod.fst (haccepted Pll.dkl _ _)).trans ?_
      dsimp only
      by_cases hdivider : DklClock.preDivider.get p.div0.proposed = 0
      · rw [if_pos hdivider, if_pos hdivider]
        rfl
      · rw [if_neg hdivider, if_neg hdivider]
        rfl
    | c20 p =>
      dsimp only
      rw [if_pos hfrequency]
      refine (congrArg Prod.fst (haccepted Pll.c20 _ _)).trans ?_
      dsimp only
      split <;> split <;> rfl
  · have hrefused {β : Type} (f : β → Pll) (what : String) (k : Unit → Fallible σ β) :
        ((f <$> (h.requireFrequency target what >>= k)).run s).1 =
          .error (.invalidArgument what) := by
      rw [map_run, run_then, Environment.requireFrequency_run, if_neg hfrequency]
      rfl
    unfold retuned
    cases p with
    | combo p | dkl p | c20 p =>
      dsimp only
      rw [if_neg hfrequency]
      exact hrefused _ _ _

theorem clock_toPll (p : FractionalPll) (v : Version) : p.toPll.clock v = p.clock v := by
  cases p <;> rfl

theorem retuned_ok {p : FractionalPll} (hp : p.Tunable) {target : ℚ} (htarget : 0 < target) :
    p.retuned target = .ok (p.propose (p.fieldsFor target)) := by
  have hzero : (0.0 : ℚ) = 0 := by norm_num
  have hfrequency : Scalar.isFrequency target = true := decide_eq_true (hzero.trans_lt htarget)
  cases p with
  | combo p | c20 p => exact if_pos hfrequency
  | dkl p => exact (if_pos hfrequency).trans (if_neg hp)

/-! ## Fields -/

theorem fields_le (p : FractionalPll) (v : Version) :
    (p.fields v).1 ≤ p.tops.1 ∧ (p.fields v).2 ≤ p.tops.2 := by
  cases p with
  | combo p | dkl p => exact ⟨UInt32.and_le_right, UInt32.and_le_right⟩
  | c20 p =>
    exact ⟨UInt32.le_iff_toNat_le.mpr (Nat.le_of_lt_succ (p.quotient.value v).toNat_lt),
      UInt32.le_iff_toNat_le.mpr (Nat.le_of_lt_succ (p.remainder.value v).toNat_lt)⟩

theorem halfword_back {w : UInt32} (hw : w ≤ 0xFFFF) : w.toUInt16.toUInt32 = w := by
  have hle : w.toNat ≤ 0xFFFF := UInt32.le_iff_toNat_le.mp hw
  apply UInt32.toNat_inj.mp
  show w.toNat % 65536 = w.toNat
  omega

theorem fields_propose (p : FractionalPll) {whole part : UInt32} (hwhole : whole ≤ p.tops.1)
    (hpart : part ≤ p.tops.2) : (p.propose (whole, part)).fields .proposed = (whole, part) := by
  cases p with
  | combo p =>
    refine Prod.ext ?_ ?_
    · refine (Field.get_set_of_apart (by decide) (by decide) _ _).trans ?_
      exact Field.get_set_of_le (by decide) (by decide) (by decide) _ hwhole
    · exact Field.get_set_of_le (by decide) (by decide) (by decide) _ hpart
  | dkl p =>
    exact Prod.ext (Field.get_set_of_le (by decide) (by decide) (by decide) _ hwhole)
      (Field.get_set_of_le (by decide) (by decide) (by decide) _ hpart)
  | c20 p =>
    show (((p.propose whole.toUInt16 part.toUInt16).quotient.value .proposed).toUInt32,
      ((p.propose whole.toUInt16 part.toUInt16).remainder.value .proposed).toUInt32) = _
    rw [C20Pll.quotient_propose, C20Pll.remainder_propose]
    exact Prod.ext (halfword_back hwhole) (halfword_back hpart)

/-! ## Clocks on a grid -/

/-- The clock follows the ratio of its fields, and the fields for a target are those
that come nearest on the grid. -/
structure OnGrid (p : FractionalPll) (g : RatioGrid) (base scale : ℚ) : Prop where
  scale_pos : 0 < scale
  tops : p.tops.1.toNat = g.wholeTop ∧ p.tops.2.toNat = g.partTop
  clock : ∀ v, p.clock v = base + scale * g.value (p.fields v).1.toNat (p.fields v).2.toNat
  proposed : ∀ fields : UInt32 × UInt32, fields.1 ≤ p.tops.1 → fields.2 ≤ p.tops.2 →
    (p.propose fields).clock .proposed = base + scale * g.value fields.1.toNat fields.2.toNat
  fieldsFor : ∀ target : ℚ, (p.fieldsFor target).1.toNat = g.wholeFor ((target - base) / scale) ∧
    (p.fieldsFor target).2.toNat = g.partFor ((target - base) / scale)

theorem onGrid_combo (p : ComboPll) : (combo p).OnGrid ComboClock.grid 0 19200 where
  scale_pos := by norm_num
  tops := ⟨rfl, rfl⟩
  clock v := by
    rw [zero_add]
    exact ComboClock.ofWord_rat _
  proposed fields hwhole hpart := by
    rw [zero_add]
    exact (ComboClock.ofWord_rat _).trans (congrArg (fun fields : UInt32 × UInt32 =>
      19200 * ComboClock.grid.value fields.1.toNat fields.2.toNat) (fields_propose _ hwhole hpart))
  fieldsFor target := by
    rw [sub_zero]
    exact ComboClock.ratioFor_rat target

theorem onGrid_dkl {p : DklPll} (hp : (dkl p).Tunable) (hdiv0 : p.div0.DiffersIn 0xFF) :
    (dkl p).OnGrid DklClock.grid 0 (DklClock.scale (DklClock.preDivider.get p.div0.proposed)) where
  scale_pos := DklClock.scale_pos hp
  tops := ⟨rfl, rfl⟩
  clock v := by
    have hdivider : DklClock.preDivider.get (p.div0.value v) =
        DklClock.preDivider.get p.div0.proposed := by
      cases v with
      | found => exact (Pll.preDivider_proposed hdiv0).symm
      | proposed => rfl
    rw [zero_add, ← hdivider]
    exact DklClock.ofWords_rat _ _
  proposed fields hwhole hpart := by
    have hdivider : DklClock.preDivider.get (DklClock.integer.set p.div0.proposed fields.1) =
        DklClock.preDivider.get p.div0.proposed :=
      Field.get_set_of_apart (by decide) (by decide) _ _
    have hclock := DklClock.ofWords_rat (DklClock.integer.set p.div0.proposed fields.1)
      (DklClock.fraction.set p.bias.proposed fields.2)
    rw [hdivider] at hclock
    rw [zero_add]
    exact hclock.trans (congrArg (fun fields : UInt32 × UInt32 =>
      DklClock.scale (DklClock.preDivider.get p.div0.proposed) *
        DklClock.grid.value fields.1.toNat fields.2.toNat) (fields_propose _ hwhole hpart))
  fieldsFor target := by
    rw [sub_zero]
    exact DklClock.ratioFor_rat target _

theorem onGrid_c20 {p : C20Pll} (hp : (c20 p).Tunable)
    (hden : p.denominator.proposed = p.denominator.found) :
    (c20 p).OnGrid (MpllDividers.grid hp.2) (p.dividers.scale * p.dividers.wholeRatio)
      p.dividers.scale where
  scale_pos := p.dividers.scale_pos
  tops := ⟨rfl, rfl⟩
  clock v := by
    have hvalue : p.denominator.value v = p.denominator.found := by
      cases v with
      | found => rfl
      | proposed => exact hden
    unfold FractionalPll.clock
    dsimp only
    rw [hvalue]
    exact MpllDividers.clock_rat hp.2 hp.1 _ _
  proposed fields hwhole hpart := by
    have hclock := MpllDividers.clock_rat hp.2 hp.1 fields.1.toUInt16 fields.2.toUInt16
    show p.dividers.clock ((p.propose _ _).quotient.value .proposed)
      ((p.propose _ _).remainder.value .proposed) ((p.propose _ _).denominator.value .proposed) = _
    rw [C20Pll.quotient_propose, C20Pll.remainder_propose, C20Pll.denominator_propose]
    show p.dividers.clock fields.1.toUInt16 fields.2.toUInt16 p.denominator.proposed = _
    rw [hden, hclock, ← UInt16.toNat_toUInt32, ← UInt16.toNat_toUInt32, halfword_back hwhole,
      halfword_back hpart]
  fieldsFor target := MpllDividers.quotientFor_rat hp.2 target

theorem exists_grid {p : FractionalPll} (hp : p.Tunable) (hinFields : p.toPll.InFields) :
    ∃ g base scale, p.OnGrid g base scale := by
  cases p with
  | combo p => exact ⟨_, _, _, onGrid_combo p⟩
  | dkl p => exact ⟨_, _, _, onGrid_dkl hp hinFields.1⟩
  | c20 p => exact ⟨_, _, _, onGrid_c20 hp (hinFields.2.2 7 (by decide) (by decide))⟩

def encoded (p : FractionalPll) : Set ℚ :=
  {clock | ∃ fields : UInt32 × UInt32, (fields.1 ≤ p.tops.1 ∧ fields.2 ≤ p.tops.2) ∧
    (p.propose fields).clock .proposed = clock}

def lowest (p : FractionalPll) : ℚ := (p.propose (0, 0)).clock .proposed

def highest (p : FractionalPll) : ℚ := (p.propose p.tops).clock .proposed

/-- What one unit of the fraction adds to the clock. -/
def unit (p : FractionalPll) : ℚ := (p.propose (0, 1)).clock .proposed - p.lowest

namespace OnGrid
variable {p : FractionalPll} {g : RatioGrid} {base scale target : ℚ} (hg : p.OnGrid g base scale)
include hg

theorem lowest_eq : p.lowest = base := by
  have hzero := hg.proposed (0, 0) (Nat.zero_le _) (Nat.zero_le _)
  unfold lowest
  rw [hzero]
  show base + scale * g.value 0 0 = base
  rw [RatioGrid.value_zero, mul_zero, add_zero]

theorem highest_eq : p.highest = base + scale * g.highest := by
  unfold highest RatioGrid.highest
  rw [hg.proposed _ (UInt32.le_refl _) (UInt32.le_refl _), hg.tops.1, hg.tops.2]

theorem one_more {whole part : UInt32} (hwhole : whole ≤ p.tops.1) (hpart : part < p.tops.2) :
    (p.propose (whole, part + 1)).clock .proposed =
      (p.propose (whole, part)).clock .proposed + scale / g.units := by
  have hlt : part.toNat < p.tops.2.toNat := UInt32.lt_iff_toNat_lt.mp hpart
  have htop := p.tops.2.toNat_lt
  have hnext : (part + 1).toNat = part.toNat + 1 := by
    rw [UInt32.toNat_add]
    exact Nat.mod_eq_of_lt (show part.toNat + 1 < 2 ^ 32 by omega)
  have hfits : part + 1 ≤ p.tops.2 := UInt32.le_iff_toNat_le.mpr (hnext ▸ hlt)
  rw [hg.proposed _ hwhole hfits, hg.proposed _ hwhole (UInt32.le_of_lt hpart), hnext,
    RatioGrid.value_succ]
  ring

theorem unit_eq : p.unit = scale / g.units := by
  have hone : 0 < p.tops.2 := by
    cases p with
    | combo => exact show 0 < ComboClock.fraction.top by decide
    | dkl => exact show 0 < DklClock.fraction.top by decide
    | c20 => exact show (0 : UInt32) < 0xFFFF by decide
  have hmore := hg.one_more (UInt32.zero_le (a := p.tops.1)) hone
  exact sub_eq_iff_eq_add'.mpr hmore

theorem isLeast : IsLeast p.encoded p.lowest := by
  refine ⟨⟨(0, 0), ⟨Nat.zero_le _, Nat.zero_le _⟩, rfl⟩, ?_⟩
  rintro _ ⟨fields, ⟨hwhole, hpart⟩, rfl⟩
  rw [hg.lowest_eq, hg.proposed fields hwhole hpart]
  exact le_add_of_nonneg_right (mul_nonneg hg.scale_pos.le (RatioGrid.value_nonneg _ _))

theorem isGreatest : IsGreatest p.encoded p.highest := by
  refine ⟨⟨p.tops, ⟨UInt32.le_refl _, UInt32.le_refl _⟩, rfl⟩, ?_⟩
  rintro _ ⟨fields, ⟨hwhole, hpart⟩, rfl⟩
  rw [hg.highest_eq, hg.proposed fields hwhole hpart]
  have hvalue := RatioGrid.value_le_highest (g := g)
    (hg.tops.1 ▸ UInt32.le_iff_toNat_le.mp hwhole) (hg.tops.2 ▸ UInt32.le_iff_toNat_le.mp hpart)
  exact add_le_add_right (mul_le_mul_of_nonneg_left hvalue hg.scale_pos.le) _

theorem clock_mem (v : Version) : p.clock v ∈ p.encoded := by
  obtain ⟨hwhole, hpart⟩ := p.fields_le v
  exact ⟨p.fields v, ⟨hwhole, hpart⟩, (hg.proposed _ hwhole hpart).trans (hg.clock v).symm⟩

theorem fieldsFor_le (target : ℚ) :
    (p.fieldsFor target).1 ≤ p.tops.1 ∧ (p.fieldsFor target).2 ≤ p.tops.2 := by
  obtain ⟨hwhole, hpart⟩ := hg.fieldsFor target
  rw [UInt32.le_iff_toNat_le, UInt32.le_iff_toNat_le, hwhole, hpart, hg.tops.1, hg.tops.2]
  exact ⟨g.wholeFor_le _, g.partFor_le _⟩

theorem clock_fieldsFor (target : ℚ) : (p.propose (p.fieldsFor target)).clock .proposed =
    base + scale * g.nearest ((target - base) / scale) := by
  obtain ⟨hwhole, hpart⟩ := hg.fieldsFor target
  rw [hg.proposed _ (hg.fieldsFor_le target).1 (hg.fieldsFor_le target).2, hwhole, hpart]
  rfl

theorem meets (htarget : target ∈ p.encoded) :
    (p.propose (p.fieldsFor target)).clock .proposed = target := by
  obtain ⟨fields, ⟨hwhole, hpart⟩, hclock⟩ := htarget
  rw [hg.proposed fields hwhole hpart] at hclock
  have hratio : (target - base) / scale = g.value fields.1.toNat fields.2.toNat := by
    rw [← hclock, add_sub_cancel_left, mul_div_cancel_left₀ _ hg.scale_pos.ne']
  rw [hg.clock_fieldsFor, hratio, RatioGrid.nearest_value
    (hg.tops.1 ▸ UInt32.le_iff_toNat_le.mp hwhole) (hg.tops.2 ▸ UInt32.le_iff_toNat_le.mp hpart),
    hclock]

theorem near (hlow : p.lowest ≤ target) (hhigh : target ≤ p.highest) :
    |(p.propose (p.fieldsFor target)).clock .proposed - target| < p.unit := by
  have hscale := hg.scale_pos
  have hclock := hg.clock_fieldsFor target
  obtain ⟨ratio, hratio⟩ : ∃ ratio, ratio = (target - base) / scale := ⟨_, rfl⟩
  have htarget : target = base + scale * ratio := by
    rw [hratio, mul_div_cancel₀ _ hscale.ne', add_sub_cancel]
  rw [← hratio, add_comm base] at hclock
  rw [hg.lowest_eq] at hlow
  rw [hg.highest_eq] at hhigh
  have hnonneg : 0 ≤ ratio := hratio ▸ div_nonneg (sub_nonneg.mpr hlow) hscale.le
  have hle : ratio ≤ g.highest :=
    hratio ▸ (div_le_iff₀' hscale).mpr (sub_le_iff_le_add'.mpr hhigh)
  have hoff : (p.propose (p.fieldsFor target)).clock .proposed - target =
      scale * (g.nearest ratio - ratio) := by
    rw [hclock, htarget, add_comm base, add_sub_add_right_eq_sub, mul_sub]
  rw [hoff, hg.unit_eq, abs_mul, abs_of_pos hscale, ← mul_one_div]
  exact mul_lt_mul_of_pos_left (RatioGrid.nearest_near hnonneg hle) hscale

theorem above (hhigh : p.highest < target) :
    (p.propose (p.fieldsFor target)).clock .proposed = p.highest := by
  rw [hg.highest_eq] at hhigh ⊢
  have hlt : g.highest < (target - base) / scale :=
    (lt_div_iff₀' hg.scale_pos).mpr (lt_sub_iff_add_lt'.mpr hhigh)
  rw [hg.clock_fieldsFor, RatioGrid.nearest_above hlt]

theorem below (hlow : target < p.lowest) :
    (p.propose (p.fieldsFor target)).clock .proposed = p.lowest := by
  rw [hg.lowest_eq] at hlow ⊢
  have hle : (target - base) / scale ≤ 0 :=
    div_nonpos_of_nonpos_of_nonneg (sub_nonpos.mpr hlow.le) hg.scale_pos.le
  rw [hg.clock_fieldsFor, RatioGrid.nearest_below hle, mul_zero, add_zero]

end OnGrid

end FractionalPll

/-- In doubles a retune answers what `retuned` says; over the rationals `retuned`
accepts every positive target. What it stores in the two fields fits them. The clock
is the target itself where the fields can encode it, as they do every clock that was
captured. In the range it is less than one unit of the fraction off, and beyond the
range it is the nearer end. -/
theorem retunes_quantised {p : FractionalPll} (hp : p.Tunable) (hinFields : p.toPll.InFields) :
    (∀ {σ : Type} (h : Host σ) (target : Float) (s : σ),
        ((p.toPll.retune h target).run s).1 = (p.retuned target).map FractionalPll.toPll) ∧
      (∀ v, p.toPll.clock v = p.clock v) ∧
      (IsLeast p.encoded p.lowest ∧ IsGreatest p.encoded p.highest) ∧
      (∀ whole part, whole ≤ p.tops.1 → part < p.tops.2 →
        (p.propose (whole, part + 1)).clock .proposed =
          (p.propose (whole, part)).clock .proposed + p.unit) ∧
      (∀ v, p.clock v ∈ p.encoded) ∧
      ∀ target : ℚ, 0 < target → ∃ q, p.retuned target = .ok q ∧
        ((p.fieldsFor target).1 ≤ p.tops.1 ∧ (p.fieldsFor target).2 ≤ p.tops.2 ∧
          q.fields .proposed = p.fieldsFor target) ∧
        (target ∈ p.encoded → q.clock .proposed = target) ∧
        (p.lowest ≤ target → target ≤ p.highest → |q.clock .proposed - target| < p.unit) ∧
        (p.highest < target → q.clock .proposed = p.highest) ∧
        (target < p.lowest → q.clock .proposed = p.lowest) := by
  obtain ⟨g, base, scale, hg⟩ := FractionalPll.exists_grid hp hinFields
  refine ⟨fun h target s => p.retune_answer h target s, p.clock_toPll,
    ⟨hg.isLeast, hg.isGreatest⟩, fun whole part hwhole hpart => ?_, hg.clock_mem,
    fun target htarget => ?_⟩
  · rw [hg.unit_eq]
    exact hg.one_more hwhole hpart
  · obtain ⟨hwhole, hpart⟩ := hg.fieldsFor_le target
    exact ⟨_, FractionalPll.retuned_ok hp htarget,
      ⟨hwhole, hpart, FractionalPll.fields_propose p hwhole hpart⟩, hg.meets, hg.near, hg.above,
      hg.below⟩

/-- A C20 PLL in which the remainder found is more than one unit of the quotient. -/
def C20Pll.ofOverlap : C20Pll :=
  { ofBus (.ofPort 0) with
    mpll := #v[.empty 0, .empty 0, .empty 0, .empty 0, .empty 0, .empty 0, .empty 0, ⟨0, 100, 100⟩,
      ⟨0x130, 5000, 5000⟩, ⟨0x131, 250, 250⟩]
    dividers := .decode .a 1 0x2040 0x0100 0x4400
    captured := true }

theorem retunes_quantised_overlap :
    C20Pll.ofOverlap.denominator.found < C20Pll.ofOverlap.remainder.found ∧
      ∃ q, (FractionalPll.c20 .ofOverlap).retuned
          ((FractionalPll.c20 .ofOverlap).clock .found : ℚ) = .ok q ∧
        q.clock .proposed = ((FractionalPll.c20 .ofOverlap).clock .found : ℚ) := by
  have hp : (FractionalPll.c20 .ofOverlap).Tunable := ⟨by decide +kernel, by decide +kernel⟩
  have hinFields : (FractionalPll.c20 .ofOverlap).toPll.InFields := by
    refine ⟨?_, ?_, ?_⟩ <;> decide +kernel
  have hclock : (0 : ℚ) < (FractionalPll.c20 .ofOverlap).clock .found := by decide +kernel
  obtain ⟨-, -, -, -, hencoded, hretuned⟩ := retunes_quantised hp hinFields
  obtain ⟨q, hq, -, hmeets, -⟩ := hretuned _ hclock
  exact ⟨by decide +kernel, q, hq, hmeets (hencoded .found)⟩

end Retune
