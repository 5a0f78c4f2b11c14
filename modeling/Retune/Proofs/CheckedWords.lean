/-!
# Checked arithmetic on words

Sums, products, quotients and shifts of 64-bit words that stop where a result
is too large for a word, a shift is as long as a word, or a divisor is zero.
Where they do not stop they are exact: a word stands for the number that the
same arithmetic on numbers gives.
-/

namespace Retune

inductive WordFault where
  | overflow
  | longShift
  | zeroDivisor
  deriving DecidableEq, Repr

abbrev Checked := Except WordFault

namespace Checked

def add (x y : UInt64) : Checked UInt64 :=
  if x.toNat + y.toNat < UInt64.size then .ok (x + y) else .error .overflow

def mul (x y : UInt64) : Checked UInt64 :=
  if x.toNat * y.toNat < UInt64.size then .ok (x * y) else .error .overflow

def div (x y : UInt64) : Checked UInt64 :=
  if y = 0 then .error .zeroDivisor else .ok (x / y)

/-- Bits that leave the word are an overflow, too. -/
def shiftLeft (x : UInt64) (k : Nat) : Checked UInt64 :=
  if k < 64 then
    if x.toNat <<< k < UInt64.size then .ok (x <<< k.toUInt64) else .error .overflow
  else .error .longShift

def minus (x y : UInt64) : UInt64 := if y ≤ x then x - y else 0

/-- `x` does not stop, and `P` holds of what it answers. -/
def Fits {α : Type} (x : Checked α) (P : α → Prop) : Prop := ∃ a, x = .ok a ∧ P a

section
variable {α β : Type} {P : α → Prop} {Q : β → Prop}

theorem fits_pure {a : α} (ha : P a) : Fits (pure a) P := ⟨a, rfl, ha⟩

theorem Fits.bind {x : Checked α} {f : α → Checked β} (hx : Fits x P)
    (hf : ∀ a, P a → Fits (f a) Q) : Fits (x >>= f) Q := by
  obtain ⟨a, rfl, ha⟩ := hx
  exact hf a ha

theorem Fits.imp {x : Checked α} {P' : α → Prop} (hx : Fits x P) (h : ∀ a, P a → P' a) :
    Fits x P' := by
  obtain ⟨a, hok, ha⟩ := hx
  exact ⟨a, hok, h a ha⟩

end

/-! ## Each operation is exact -/

theorem lt_size {n : Nat} (h : n ≤ 18446744073709551615) : n < UInt64.size := Nat.lt_succ_of_le h

section
variable {x y : UInt64}

theorem fits_add (h : x.toNat + y.toNat < UInt64.size) :
    Fits (add x y) (·.toNat = x.toNat + y.toNat) :=
  ⟨x + y, if_pos h, (UInt64.toNat_add x y).trans (Nat.mod_eq_of_lt h)⟩

theorem fits_mul (h : x.toNat * y.toNat < UInt64.size) :
    Fits (mul x y) (·.toNat = x.toNat * y.toNat) :=
  ⟨x * y, if_pos h, (UInt64.toNat_mul x y).trans (Nat.mod_eq_of_lt h)⟩

theorem fits_div (h : 0 < y.toNat) : Fits (div x y) (·.toNat = x.toNat / y.toNat) := by
  have hne : y ≠ 0 := by
    rintro rfl
    cases h
  exact ⟨x / y, if_neg hne, UInt64.toNat_div x y⟩

theorem fits_shiftLeft {k : Nat} (hk : k < 64) (h : x.toNat <<< k < UInt64.size) :
    Fits (shiftLeft x k) (·.toNat = x.toNat <<< k) := by
  have hamount : k.toUInt64.toNat % 64 = k := by
    have hword : k.toUInt64.toNat = k := UInt64.toNat_ofNat_of_lt' (lt_size (by omega))
    omega
  have hresult : (x <<< k.toUInt64).toNat = x.toNat <<< k := by
    rw [UInt64.toNat_shiftLeft, hamount]
    exact Nat.mod_eq_of_lt h
  refine ⟨x <<< k.toUInt64, ?_, hresult⟩
  unfold shiftLeft
  rw [if_pos hk, if_pos h]

theorem toNat_minus (x y : UInt64) : (minus x y).toNat = x.toNat - y.toNat := by
  unfold minus
  split
  · rename_i hle
    exact UInt64.toNat_sub_of_le x y hle
  · rename_i hlt
    have : x.toNat < y.toNat := by simpa [UInt64.le_iff_toNat_le] using hlt
    simp
    omega

theorem toNat_min (x y : UInt64) : (min x y).toNat = min x.toNat y.toNat := by
  rw [Std.min_eq_if, Nat.min_def]
  simp only [UInt64.le_iff_toNat_le]
  split <;> rfl

end

end Checked

end Retune
