import Mathlib.Tactic.FieldSimp
import Retune.Proofs.ExactNumbers
import Retune.Stepping.Plan

/-!
# Step plans are bounded, exact and minimal

Over the rationals the steps of a plan add up to the change. The percentage that lets
a change pass in one step is rounded, so that such a step may be larger than the shift,
by half a unit of the fourth decimal; where there are more steps, none is larger than
the shift, and one step less would be too few.
-/

namespace Retune.StepPlan

variable {current target shift : ℚ}

theorem percentChange_near (current target : ℚ) :
    |target - current| / current * 100 ≤ percentChange current target + 5 / 100000 := by
  obtain ⟨k, hk, hge, -⟩ := Scalar.round_rat (|target - current| / current * 100 * 10000)
  have hpercent : percentChange current target = k / 10000 := by
    have hround : percentChange current target =
        Scalar.round (|target - current| / current * 100 * 10000) / 10000 := by
      unfold percentChange
      rw [Scalar.abs_rat]
      norm_num
    rw [hround, hk]
  rw [hpercent]
  linarith

theorem direct_bounded (hcurrent : 0 < current) (hpercent : percentChange current target ≤ shift) :
    |target - current| ≤ current * (shift + 5 / 100000) / 100 := by
  have hnear := percentChange_near current target
  have hshare : |target - current| / current ≤ (shift + 5 / 100000) / 100 := by linarith
  have hchange := (div_le_iff₀ hcurrent).mp hshare
  linarith

theorem abs_step (hcurrent : 0 < current) (hshift : 0 < shift) {direction : ℚ}
    (hdirection : |direction| = 1) : |current * shift / 100 * direction| = current * shift / 100 := by
  have hpos : 0 < current * shift / 100 := by positivity
  rw [abs_mul, hdirection, abs_of_pos hpos, mul_one]

theorem ofMove_cases (hcurrent : 0 < current) (hshift : 0 < shift) (target : ℚ) :
    let count := (|target - current| / (current * shift / 100)).ceil
    let steps := Scalar.toWord64 (count : ℚ)
    (ofMove current target shift = direct current target ∧
        (percentChange current target ≤ shift ∨ steps ≤ 1)) ∨
      (ofMove current target shift = ⟨steps, (target - current) / steps.toNat⟩ ∧ 1 < steps) := by
  intro count steps
  have hzero : (shift == (0.0 : ℚ)) = false := by
    rw [beq_eq_false_iff_ne]
    norm_num
    exact hshift.ne'
  have hsteps : ∀ direction : ℚ, |direction| = 1 → Scalar.toWord64 (Scalar.ceil (Scalar.abs
      ((target - current) / (current * shift / (100.0 : ℚ) * direction)))) = steps := by
    intro direction hdirection
    have hhundred : (100.0 : ℚ) = 100 := by norm_num
    rw [Scalar.abs_rat, hhundred, abs_div, abs_step hcurrent hshift hdirection]
    rfl
  have hdirection : |(if current < target then (1.0 : ℚ) else -(1.0 : ℚ))| = 1 := by
    split <;> norm_num
  unfold ofMove
  rw [hzero, Bool.false_or]
  by_cases hpercent : percentChange current target ≤ shift
  · rw [if_pos (decide_eq_true hpercent)]
    exact .inl ⟨rfl, .inl hpercent⟩
  · rw [if_neg (by rw [decide_eq_true_iff]; exact hpercent)]
    dsimp only
    rw [hsteps _ hdirection]
    by_cases hmore : 1 < steps
    · rw [if_pos hmore]
      exact .inr ⟨rfl, hmore⟩
    · rw [if_neg hmore]
      exact .inl ⟨rfl, .inr (UInt64.not_lt.mp hmore)⟩

theorem steps_between {r : ℚ} (hr : 0 ≤ r) (hfits : r ≤ 2 ^ 64 - 1) :
    r ≤ (Scalar.toWord64 (r.ceil : ℚ)).toNat ∧ (Scalar.toWord64 (r.ceil : ℚ)).toNat < r + 1 := by
  have hle := Rat.le_ceil (x := r)
  have hlt := Rat.ceil_lt (x := r)
  have hpos : 0 ≤ r.ceil := by
    have h : ((0 : ℤ) : ℚ) ≤ r.ceil := hr.trans hle
    exact_mod_cast h
  have htop : r.ceil ≤ 0xFFFFFFFFFFFFFFFF := by
    refine Rat.ceil_le_iff.mpr (hfits.trans ?_)
    norm_num
  have hsteps : ((Scalar.toWord64 (r.ceil : ℚ)).toNat : ℤ) = r.ceil := by
    rw [Scalar.toNat_toWord64, Scalar.wholeWithin_intCast]
    omega
  have hcast : ((Scalar.toWord64 (r.ceil : ℚ)).toNat : ℚ) = r.ceil := by exact_mod_cast hsteps
  rw [hcast]
  exact ⟨hle, hlt⟩

end Retune.StepPlan

namespace Retune

/-- Unless a move is longer than a word can count steps: there is a step, the steps add up
to the change, and none is larger than the shift and what the rounded percentage lets
pass. If there are more than one, none is larger than the shift, and with one step less
they would be. -/
theorem plans_bounded {current target shift : ℚ} (hcurrent : 0 < current) (hshift : 0 < shift)
    (hcount : |target - current| * 100 / (current * shift) ≤ 2 ^ 64 - 1) :
    let plan := StepPlan.ofMove current target shift
    let steps : ℚ := plan.steps.toNat
    1 ≤ plan.steps.toNat ∧ steps * plan.size = target - current ∧
      |plan.size| ≤ current * (shift + 5 / 100000) / 100 ∧
      (1 < plan.steps.toNat → |plan.size| ≤ current * shift / 100 ∧
        current * shift / 100 < |(target - current) / (steps - 1)|) := by
  have hlargest : 0 < current * shift / 100 := by positivity
  have hslack : current * shift / 100 ≤ current * (shift + 5 / 100000) / 100 := by linarith
  have hratio : |target - current| / (current * shift / 100) =
      |target - current| * 100 / (current * shift) := by field_simp
  have hpos : 0 ≤ |target - current| / (current * shift / 100) := by positivity
  obtain ⟨hge, hlt⟩ := StepPlan.steps_between hpos (hratio.trans_le hcount)
  rw [div_le_iff₀ hlargest] at hge
  rw [← sub_lt_iff_lt_add, lt_div_iff₀ hlargest] at hlt
  have hcases := StepPlan.ofMove_cases hcurrent hshift target
  dsimp only at hcases
  generalize Scalar.toWord64 ((|target - current| / (current * shift / 100)).ceil : ℚ) = count
    at hge hlt hcases
  intro plan steps
  rcases hcases with ⟨hplan, hdirect⟩ | ⟨hplan, hmore⟩
  · have hsteps : plan.steps.toNat = 1 := congrArg (fun p => p.steps.toNat) hplan
    have hsize : plan.size = target - current := congrArg StepPlan.size hplan
    have hone : steps = 1 := congrArg Nat.cast hsteps
    rw [hsteps, hone, hsize]
    refine ⟨le_rfl, one_mul _, ?_, fun h => absurd h (lt_irrefl 1)⟩
    rcases hdirect with hpercent | hfew
    · exact StepPlan.direct_bounded hcurrent hpercent
    · have hcount : (count.toNat : ℚ) ≤ 1 := by exact_mod_cast UInt64.le_iff_toNat_le.mp hfew
      calc |target - current| ≤ count.toNat * (current * shift / 100) := hge
        _ ≤ 1 * (current * shift / 100) := mul_le_mul_of_nonneg_right hcount hlargest.le
        _ ≤ current * (shift + 5 / 100000) / 100 := by rwa [one_mul]
  · have hsteps : plan.steps = count := congrArg StepPlan.steps hplan
    have hsize : plan.size = (target - current) / count.toNat := congrArg StepPlan.size hplan
    have hmore : 1 < count.toNat := UInt64.lt_iff_toNat_lt.mp hmore
    have hmany : (1 : ℚ) < count.toNat := by exact_mod_cast hmore
    have hcountPos : (0 : ℚ) < count.toNat := zero_lt_one.trans hmany
    have hcast : steps = count.toNat := congrArg (fun w => (w.toNat : ℚ)) hsteps
    have hwithin : |(target - current) / count.toNat| ≤ current * shift / 100 := by
      rw [abs_div, abs_of_pos hcountPos, div_le_iff₀ hcountPos, mul_comm]
      exact hge
    rw [hsteps, hcast, hsize]
    refine ⟨hmore.le, mul_div_cancel₀ _ hcountPos.ne', hwithin.trans hslack, fun _ => ⟨hwithin, ?_⟩⟩
    have hfewer : (0 : ℚ) < count.toNat - 1 := sub_pos.mpr hmany
    rw [abs_div, abs_of_pos hfewer, lt_div_iff₀ hfewer, mul_comm]
    exact hlt

theorem plans_bounded_down :
    |(90 : ℚ) - 100| * 100 / (100 * 3) ≤ 2 ^ 64 - 1 ∧
      (StepPlan.ofMove (100 : ℚ) 90 3).steps = 4 ∧
      |(StepPlan.ofMove (100 : ℚ) 90 3).size| ≤ 100 * 3 / 100 := by
  have hcount : |(90 : ℚ) - 100| * 100 / (100 * 3) ≤ 2 ^ 64 - 1 := by norm_num
  have hsteps : (StepPlan.ofMove (100 : ℚ) 90 3).steps = 4 := by decide +kernel
  obtain ⟨-, -, -, hmore⟩ := plans_bounded (by norm_num) (by norm_num) hcount
  rw [hsteps] at hmore
  exact ⟨hcount, hsteps, (hmore (by decide)).1⟩

end Retune
