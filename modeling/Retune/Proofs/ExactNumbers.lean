import Mathlib.Data.Rat.Floor
import Mathlib.Tactic.Linarith
import Mathlib.Tactic.NormNum.OfScientific
import Retune.Scalar

/-!
# Formulas over the rationals

Over the rationals sums, products and quotients are exact, and what a formula cuts
off is cut off on purpose: in rounding to a whole number, and at the ends of a field
or a word.
-/

namespace Retune.Scalar

theorem abs_rat (q : ℚ) : abs q = |q| := by
  rcases le_total 0 q with hq | hq
  · exact (Rat.abs_of_nonneg hq).trans (abs_of_nonneg hq).symm
  · exact (Rat.abs_of_nonpos hq).trans (abs_of_nonpos hq).symm

/-! ## Rounding -/

/-- What rounding gives is whole, and half a unit away at most. -/
theorem round_rat (q : ℚ) : ∃ k : ℤ, round q = k ∧ q - 1 / 2 ≤ k ∧ k ≤ q + 1 / 2 := by
  have hround : round q = if q < 0 then -((1 / 2 - q).floor : ℚ) else ((q + 1 / 2).floor : ℚ) := rfl
  rw [hround]
  split
  · have hle := Rat.floor_le (1 / 2 - q)
    have hlt := Rat.lt_floor_add_one (1 / 2 - q)
    push_cast at hlt
    refine ⟨-(1 / 2 - q).floor, (Int.cast_neg _).symm, ?_, ?_⟩ <;> push_cast <;> linarith
  · have hle := Rat.floor_le (q + 1 / 2)
    have hlt := Rat.lt_floor_add_one (q + 1 / 2)
    push_cast at hlt
    exact ⟨(q + 1 / 2).floor, rfl, by linarith, by linarith⟩

theorem le_of_cast_lt {a b : ℤ} (h : (a : ℚ) < b + 1) : a ≤ b :=
  Int.le_of_lt_add_one (by exact_mod_cast h)

theorem round_natCast (n : ℕ) : round (n : ℚ) = n := by
  obtain ⟨k, hk, hge, hle⟩ := round_rat n
  have hlow : (n : ℤ) ≤ k := le_of_cast_lt (by push_cast; linarith)
  have hhigh : k ≤ n := le_of_cast_lt (by push_cast; linarith)
  rw [hk, le_antisymm hhigh hlow]
  rfl

/-! ## Ranges -/

section
variable {top n : ℕ} {q : ℚ}

theorem wholeWithin_le (top : ℕ) (q : ℚ) : wholeWithin top q ≤ top := Nat.min_le_right _ _

theorem wholeWithin_intCast (top : ℕ) (k : ℤ) : wholeWithin top (k : ℚ) = min k.toNat top := by
  unfold wholeWithin
  rw [Rat.floor_intCast]

theorem wholeWithin_floor (top : ℕ) (q : ℚ) : wholeWithin top (floor q) = wholeWithin top q :=
  wholeWithin_intCast top q.floor

theorem wholeWithin_of_nonpos (hq : q ≤ 0) : wholeWithin top q = 0 := by
  have hfloor : q.floor ≤ 0 := by
    have h : (q.floor : ℚ) ≤ ((0 : ℤ) : ℚ) := (Rat.floor_le q).trans hq
    exact_mod_cast h
  unfold wholeWithin
  omega

theorem wholeWithin_le_self (hq : 0 ≤ q) : (wholeWithin top q : ℚ) ≤ q := by
  have hfloor : 0 ≤ q.floor := Rat.le_floor_iff.mpr hq
  have hle : (wholeWithin top q : ℤ) ≤ q.floor := by
    unfold wholeWithin
    omega
  exact_mod_cast Rat.le_floor_iff.mp hle

theorem le_wholeWithin (hq : (n : ℚ) ≤ q) (htop : n ≤ top) : n ≤ wholeWithin top q := by
  have hfloor : (n : ℤ) ≤ q.floor := Rat.le_floor_iff.mpr (by exact_mod_cast hq)
  unfold wholeWithin
  omega

theorem wholeWithin_of_top_le (hq : (top : ℚ) ≤ q) : wholeWithin top q = top :=
  le_antisymm (wholeWithin_le top q) (le_wholeWithin hq le_rfl)

theorem lt_wholeWithin (hlt : wholeWithin top q < top) : q < wholeWithin top q + 1 := by
  have hfloor : q.floor < wholeWithin top q + 1 := by
    unfold wholeWithin at hlt ⊢
    omega
  exact_mod_cast Rat.floor_lt_iff.mp hfloor

/-! ## Rounding into a range -/

/-- Rounding is off by less than one as far as one beyond the range. -/
theorem roundWithin_near (hq : 0 ≤ q) (hlt : q < top + 1) :
    |(wholeWithin top (round q) : ℚ) - q| < 1 := by
  obtain ⟨k, hk, hge, hle⟩ := round_rat q
  have hkNonneg : 0 ≤ k := le_of_cast_lt (by push_cast; linarith)
  have hkTop : k ≤ top + 1 := le_of_cast_lt (by push_cast; linarith)
  rw [hk, wholeWithin_intCast, abs_lt]
  by_cases hin : k ≤ top
  · have hcast : ((min k.toNat top : ℕ) : ℚ) = k := by
      have h : ((min k.toNat top : ℕ) : ℤ) = k := by omega
      exact_mod_cast h
    rw [hcast]
    constructor <;> linarith
  -- what is rounded up beyond the range stays at its top
  · have hcast : ((min k.toNat top : ℕ) : ℚ) = k - 1 := by
      have h : ((min k.toNat top : ℕ) : ℤ) = k - 1 := by omega
      exact_mod_cast h
    rw [hcast]
    have hk : (k : ℚ) = top + 1 := by
      have h : k = top + 1 := by omega
      exact_mod_cast h
    constructor <;> linarith

theorem roundWithin_natCast (hn : n ≤ top) : wholeWithin top (round (n : ℚ)) = n := by
  rw [round_natCast]
  have hfloor : ((n : ℚ)).floor = n := Rat.floor_intCast n
  unfold wholeWithin
  omega

theorem roundWithin_of_top_le (hq : (top : ℚ) ≤ q) : wholeWithin top (round q) = top := by
  obtain ⟨k, hk, hge, -⟩ := round_rat q
  have htop : (top : ℤ) ≤ k := le_of_cast_lt (by push_cast; linarith)
  rw [hk, wholeWithin_intCast]
  omega

theorem roundWithin_of_nonpos (hq : q ≤ 0) : wholeWithin top (round q) = 0 := by
  obtain ⟨k, hk, -, hle⟩ := round_rat q
  have hkNonpos : k ≤ 0 := le_of_cast_lt (by push_cast; linarith)
  rw [hk, wholeWithin_intCast]
  omega

end

/-! ## Words and fields -/

theorem toNat_toWord64 (q : ℚ) : (toWord64 q).toNat = wholeWithin 0xFFFFFFFFFFFFFFFF q := by
  have hle := wholeWithin_le 0xFFFFFFFFFFFFFFFF q
  exact UInt64.toNat_ofNat_of_lt' (Nat.lt_succ_of_le hle)

theorem toNat_toWord32 (q : ℚ) : (toWord32 q).toNat = wholeWithin 0xFFFFFFFF q := by
  have hle := wholeWithin_le 0xFFFFFFFF q
  exact UInt32.toNat_ofNat_of_lt' (Nat.lt_succ_of_le hle)

theorem toNat_toField (q : ℚ) (top : UInt32) : (toField q top).toNat = wholeWithin top.toNat q := by
  have hnumber : isNumber q = true := beq_self_eq_true q
  have hzero : (0.0 : ℚ) = 0 := by norm_num
  have htop := top.toNat_lt
  unfold toField
  rw [hnumber, Bool.not_true, Bool.false_or]
  split
  · next hq =>
    rw [wholeWithin_of_nonpos ((of_decide_eq_true hq).trans_eq hzero)]
    rfl
  · split
    · next hge => exact (wholeWithin_of_top_le hge).symm
    · next hlt =>
      have hfloor : q.floor < top.toNat := Rat.floor_lt_iff.mpr (not_le.mp hlt)
      rw [toNat_toWord32]
      unfold wholeWithin
      omega

end Retune.Scalar
