import Mathlib.Tactic.FieldSimp
import Retune.Clock.Combo
import Retune.Clock.Dkl
import Retune.Clock.Mpll
import Retune.Proofs.ExactNumbers

/-!
# Ratios in two fields

A ratio is a whole part and a fraction, which are cut to their fields one after the
other. The fraction may reach beyond one whole, so that the two overlap. What comes of
it is the ratio itself where the fields can encode it, and else less than one unit of
the fraction off, or an end of the range. Over the rationals the clocks of Combo, DKL
and C20 PLLs follow such a ratio.
-/

namespace Retune

/-- The ratios that a whole part and a fraction encode, each up to a top. The units of
the fraction leave no gap of more than one unit before the next whole. -/
structure RatioGrid where
  wholeTop : ℕ
  partTop : ℕ
  units : ℕ
  units_pos : 0 < units
  units_le : units ≤ partTop + 1

namespace RatioGrid
variable (g : RatioGrid)

def value (whole part : ℕ) : ℚ := whole + part / g.units

def highest : ℚ := g.value g.wholeTop g.partTop

def wholeFor (x : ℚ) : ℕ := Scalar.wholeWithin g.wholeTop x

/-- What the whole part leaves of a ratio, in units of the fraction. -/
def rest (x : ℚ) : ℚ := (x - g.wholeFor x) * g.units

def partFor (x : ℚ) : ℕ := Scalar.wholeWithin g.partTop (Scalar.round (g.rest x))

def nearest (x : ℚ) : ℚ := g.value (g.wholeFor x) (g.partFor x)

variable {g} {x : ℚ} {whole part : ℕ}

theorem units_cast_pos : (0 : ℚ) < g.units := Nat.cast_pos.mpr g.units_pos

theorem wholeFor_le (g : RatioGrid) (x : ℚ) : g.wholeFor x ≤ g.wholeTop := Scalar.wholeWithin_le _ _

theorem partFor_le (g : RatioGrid) (x : ℚ) : g.partFor x ≤ g.partTop := Scalar.wholeWithin_le _ _

theorem value_nonneg (whole part : ℕ) : 0 ≤ g.value whole part := by
  unfold value
  positivity

theorem value_zero : g.value 0 0 = 0 := by
  unfold value
  simp

theorem value_succ (whole part : ℕ) : g.value whole (part + 1) = g.value whole part + 1 / g.units := by
  unfold value
  push_cast
  ring

theorem value_le_highest (hwhole : whole ≤ g.wholeTop) (hpart : part ≤ g.partTop) :
    g.value whole part ≤ g.highest := by
  have hunits := g.units_cast_pos
  unfold highest value
  gcongr

theorem nearest_sub (x : ℚ) : g.nearest x - x = (g.partFor x - g.rest x) / g.units := by
  have hunits := g.units_cast_pos.ne'
  unfold nearest value rest
  field_simp
  ring

theorem rest_lt (hle : x ≤ g.highest) : g.rest x < g.partTop + 1 := by
  have hunits := g.units_cast_pos
  unfold rest
  -- below the top of the whole part less than one is left over, at the top a fraction that fits
  rcases (g.wholeFor_le x).lt_or_eq with hlt | htop
  · have hless : x - g.wholeFor x < 1 := sub_lt_iff_lt_add'.mpr (Scalar.lt_wholeWithin hlt)
    have hfull : (g.units : ℚ) ≤ g.partTop + 1 := by exact_mod_cast g.units_le
    exact ((mul_lt_iff_lt_one_left hunits).mpr hless).trans_le hfull
  · have hpart : x - g.wholeFor x ≤ g.partTop / g.units := by
      rw [htop]
      exact sub_le_iff_le_add'.mpr hle
    exact ((le_div_iff₀ hunits).mp hpart).trans_lt (lt_add_one _)

theorem nearest_near (hx : 0 ≤ x) (hle : x ≤ g.highest) : |g.nearest x - x| < 1 / g.units := by
  have hrest : 0 ≤ g.rest x :=
    mul_nonneg (sub_nonneg.mpr (Scalar.wholeWithin_le_self hx)) g.units_cast_pos.le
  have hunits := g.units_cast_pos
  rw [nearest_sub, abs_div, abs_of_pos hunits]
  exact (div_lt_div_iff_of_pos_right hunits).mpr (Scalar.roundWithin_near hrest (rest_lt hle))

/-- The rest of a ratio on the grid is whole, also where its fraction is more than one
whole. -/
theorem nearest_value (hwhole : whole ≤ g.wholeTop) (hpart : part ≤ g.partTop) :
    g.nearest (g.value whole part) = g.value whole part := by
  have hunits := g.units_cast_pos
  have hle : (g.wholeFor (g.value whole part) : ℚ) ≤ g.value whole part :=
    Scalar.wholeWithin_le_self (value_nonneg whole part)
  have hge : whole ≤ g.wholeFor (g.value whole part) := by
    refine Scalar.le_wholeWithin ?_ hwhole
    unfold value
    exact le_add_of_nonneg_right (by positivity)
  -- the whole part takes over whatever wholes were in the fraction
  obtain ⟨more, hmore⟩ := Nat.exists_eq_add_of_le hge
  have hrest : g.rest (g.value whole part) = part - (more * g.units : ℕ) := by
    unfold rest
    rw [hmore]
    unfold value
    push_cast
    field_simp
    ring
  have hfits : more * g.units ≤ part := by
    have h : (0 : ℚ) ≤ g.rest (g.value whole part) := mul_nonneg (sub_nonneg.mpr hle) hunits.le
    rw [hrest] at h
    exact_mod_cast sub_nonneg.mp h
  rw [← Nat.cast_sub hfits] at hrest
  have hback : g.partFor (g.value whole part) = part - more * g.units := by
    unfold partFor
    rw [hrest]
    exact Scalar.roundWithin_natCast (by omega)
  refine sub_eq_zero.mp ?_
  rw [nearest_sub, hback, hrest, sub_self, zero_div]

theorem nearest_above (hlt : g.highest < x) : g.nearest x = g.highest := by
  have hunits := g.units_cast_pos
  have hbeyond : (g.partTop : ℚ) / g.units < x - g.wholeTop := lt_sub_iff_add_lt'.mpr hlt
  have hwhole : g.wholeFor x = g.wholeTop := by
    refine Scalar.wholeWithin_of_top_le ?_
    have hpart : (0 : ℚ) ≤ g.partTop / g.units := by positivity
    linarith
  have hpart : g.partFor x = g.partTop := by
    refine Scalar.roundWithin_of_top_le ?_
    unfold rest
    rw [hwhole]
    exact ((div_lt_iff₀ hunits).mp hbeyond).le
  unfold nearest highest
  rw [hwhole, hpart]

theorem nearest_below (hx : x ≤ 0) : g.nearest x = 0 := by
  have hwhole : g.wholeFor x = 0 := Scalar.wholeWithin_of_nonpos hx
  have hpart : g.partFor x = 0 := by
    refine Scalar.roundWithin_of_nonpos ?_
    unfold rest
    rw [hwhole, Nat.cast_zero, sub_zero]
    exact mul_nonpos_of_nonpos_of_nonneg hx g.units_cast_pos.le
  unfold nearest
  rw [hwhole, hpart, value_zero]

end RatioGrid

/-! ## Clocks over the rationals -/

namespace ComboClock

def grid : RatioGrid := ⟨1023, 32767, 16384, by decide, by decide⟩

theorem ofWord_rat (w : UInt32) :
    (ofWord w : ℚ) = 19200 * grid.value (integer.get w).toNat (fraction.get w).toNat := by
  show ((integer.get w).toNat : ℚ) * 19200.0 + ((fraction.get w).toNat : ℚ) * 2.0 * 19200.0 / 32768.0 = _
  unfold RatioGrid.value grid
  norm_num
  ring

theorem ratioFor_rat (target : ℚ) :
    (ratioFor target).1.toNat = grid.wholeFor (target / 19200) ∧
      (ratioFor target).2.toNat = grid.partFor (target / 19200) := by
  have hratio : target / 19200.0 = target / 19200 := by norm_num
  have hwhole : (ratioFor target).1.toNat = grid.wholeFor (target / 19200) := by
    refine (Scalar.toNat_toField _ _).trans ((Scalar.wholeWithin_floor _ _).trans ?_)
    exact congrArg grid.wholeFor hratio
  have hrest : (target - ((ratioFor target).1.toNat : ℚ) * 19200.0) * 32768.0 / (2.0 * 19200.0) =
      grid.rest (target / 19200) := by
    rw [hwhole]
    unfold RatioGrid.rest
    norm_num [grid]
    ring
  refine ⟨hwhole, (Scalar.toNat_toField _ _).trans ?_⟩
  exact congrArg (fun rest => Scalar.wholeWithin 32767 (Scalar.round rest)) hrest

end ComboClock

namespace DklClock

def grid : RatioGrid := ⟨255, 4194303, 4194304, by decide, by decide⟩

def scale (preDiv : UInt32) : ℚ := 38.4 * preDiv.toNat

theorem scale_pos {preDiv : UInt32} (h : preDiv ≠ 0) : 0 < scale preDiv :=
  mul_pos (by norm_num) (Nat.cast_pos.mpr (Nat.pos_of_ne_zero fun hz => h (UInt32.toNat_inj.mp hz)))

theorem ofWords_rat (div0 bias : UInt32) : (ofWords div0 bias : ℚ) =
    scale (preDivider.get div0) * grid.value (integer.get div0).toNat (fraction.get bias).toNat := by
  show (38.4 : ℚ) * (preDivider.get div0).toNat *
    ((integer.get div0).toNat + ((fraction.get bias).toNat : ℚ) / 4194304.0) = _
  unfold RatioGrid.value grid scale
  norm_num

theorem ratioFor_rat (target : ℚ) (preDiv : UInt32) :
    (ratioFor target preDiv).1.toNat = grid.wholeFor (target / scale preDiv) ∧
      (ratioFor target preDiv).2.toNat = grid.partFor (target / scale preDiv) := by
  have hwhole : (ratioFor target preDiv).1.toNat = grid.wholeFor (target / scale preDiv) :=
    (Scalar.toNat_toField _ _).trans (Scalar.wholeWithin_floor _ _)
  have hrest : (target / scale preDiv - (ratioFor target preDiv).1.toNat) * 4194304.0 =
      grid.rest (target / scale preDiv) := by
    rw [hwhole]
    unfold RatioGrid.rest
    norm_num [grid]
  refine ⟨hwhole, (Scalar.toNat_toField _ _).trans ?_⟩
  exact congrArg (fun rest => Scalar.wholeWithin 4194303 (Scalar.round rest)) hrest

end DklClock

namespace MpllDividers

theorem twoTo_pos (n : UInt32) : (0 : ℚ) < twoTo n := by
  have hexp : n.toNat % 32 < 32 := Nat.mod_lt _ (by decide)
  have hpow : 2 ^ (n.toNat % 32) < 2 ^ 32 := Nat.pow_lt_pow_right (by decide) hexp
  have hword : (1 <<< n : UInt32).toNat = 2 ^ (n.toNat % 32) := by
    rw [UInt32.toNat_shiftLeft, Nat.shiftLeft_eq]
    show 1 * 2 ^ (n.toNat % 32) % 2 ^ 32 = _
    rw [Nat.one_mul, Nat.mod_eq_of_lt hpow]
  have hpos : 0 < (1 <<< n : UInt32).toNat := by
    rw [hword]
    exact Nat.two_pow_pos _
  exact Nat.cast_pos.mpr hpos

section
variable (f : MpllDividers)

theorem refKhz_pos : (0 : ℚ) < f.refKhz :=
  div_pos (mul_pos (by norm_num) (twoTo_pos _)) (twoTo_pos _)

theorem outputDivisor_pos : (0 : ℚ) < f.outputDivisor :=
  div_pos (mul_pos (twoTo_pos _) (twoTo_pos _)) (twoTo_pos _)

def scale : ℚ := f.refKhz / twoTo 17 / 10 / f.outputDivisor

theorem scale_pos : 0 < f.scale := by
  have href := f.refKhz_pos
  have hdivisor := f.outputDivisor_pos
  have htwo := twoTo_pos 17
  unfold scale
  positivity

theorem fractionFor_rat (target : ℚ) :
    f.fractionFor target = (target - f.scale * f.wholeRatio) / f.scale := by
  have href := f.refKhz_pos.ne'
  have hdivisor := f.outputDivisor_pos.ne'
  have htwo := (twoTo_pos 17).ne'
  show target * f.outputDivisor * 10.0 * twoTo 17 / f.refKhz - f.wholeRatio = _
  unfold scale
  norm_num
  field_simp

end

section
variable {f : MpllDividers} {den : UInt16} (hden : den ≠ 0)

def grid : RatioGrid where
  wholeTop := 0xFFFF
  partTop := 0xFFFF
  units := den.toNat
  units_pos := Nat.pos_of_ne_zero fun h => hden (UInt16.toNat_inj.mp h)
  units_le := Nat.le_of_lt den.toNat_lt

theorem clock_rat (hon : f.fracEnabled = true) (quot rem : UInt16) : f.clock quot rem den =
    f.scale * f.wholeRatio + f.scale * (grid hden).value quot.toNat rem.toNat := by
  have hinUse : (f.fracEnabled && den != 0) = true := by
    rw [hon, Bool.true_and]
    exact bne_iff_ne.mpr hden
  unfold clock
  rw [if_pos hinUse]
  show (f.refKhz : ℚ) * (f.wholeRatio + ((quot.toNat : ℚ) + (rem.toNat : ℚ) / (den.toNat : ℚ))) /
    twoTo 17 / 10.0 / f.outputDivisor = _
  unfold RatioGrid.value grid scale
  norm_num
  ring

theorem quotientFor_rat (target : ℚ) :
    let x := (target - f.scale * f.wholeRatio) / f.scale
    (f.quotientFor target den).1.toNat = (grid hden).wholeFor x ∧
      (Scalar.toField (Scalar.round (f.quotientFor target den).2) 0xFFFF).toNat =
        (grid hden).partFor x := by
  intro x
  have hfraction : f.fractionFor target = x := f.fractionFor_rat target
  have hwhole : (f.quotientFor target den).1.toNat = (grid hden).wholeFor x := by
    refine (Scalar.toNat_toField _ _).trans ((Scalar.wholeWithin_floor _ _).trans ?_)
    exact congrArg (grid hden).wholeFor hfraction
  have hrest : (f.fractionFor target - (f.quotientFor target den).1.toNat) * den.toNat =
      (grid hden).rest x := by
    rw [hwhole, hfraction]
    rfl
  refine ⟨hwhole, (Scalar.toNat_toField _ _).trans ?_⟩
  exact congrArg (fun rest => Scalar.wholeWithin 0xFFFF (Scalar.round rest)) hrest

end

end MpllDividers

end Retune
