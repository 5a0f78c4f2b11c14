import Retune.Scalar

/-!
# Whole numbers as doubles

Below two to the power of 53 every whole number is a double, and the product
of two of them is exact. Multiplication rounds by shifting the mantissa back,
which drops only zeros when the product still fits.
-/

namespace Retune

open Float.Model Float.Model.UnpackedFloat

def wholeFloat (n : Nat) (hn : 0 < n) : UnpackedFloat :=
  .finite .positive (n <<< (52 - n.log2)) (n.log2 - 52) (Nat.shiftLeft_pos_iff.mpr hn)

/-- The double `x` is the whole number `n`, which is positive and not too long
for a mantissa. -/
def IsWhole (x : Float) (n : Nat) : Prop :=
  ∃ hn : 0 < n, n < 9007199254740992 ∧ x.toModel.unpack = wholeFloat n hn

/-! ## Shifting -/

theorem log2_shift {n : Nat} (hn : 0 < n) : ∀ k, (n <<< k).log2 = n.log2 + k
  | 0 => rfl
  | k + 1 => by
    have hpos : n <<< k ≠ 0 := Nat.pos_iff_ne_zero.mp (Nat.shiftLeft_pos_iff.mpr hn)
    rw [Nat.shiftLeft_succ, Nat.log2_two_mul hpos, log2_shift hn k]
    rfl

theorem shift_back (n : Nat) : ∀ k,
    (⟨n <<< k, false, false⟩ : ExtendedMantissa) >>> k = ⟨n, false, false⟩
  | 0 => rfl
  | k + 1 => by
    have hone (m : Nat) : ExtendedMantissa.shiftRightOne ⟨2 * m, false, false⟩ =
        ⟨m, false, false⟩ := by
      simp [ExtendedMantissa.shiftRightOne]
    have hcomm : ∀ (i : Nat) (m : ExtendedMantissa),
        Nat.repeat ExtendedMantissa.shiftRightOne (i + 1) m =
          Nat.repeat ExtendedMantissa.shiftRightOne i m.shiftRightOne := by
      intro i
      induction i with
      | zero => exact fun _ => rfl
      | succ i ih => exact fun m => congrArg _ (ih m)
    show Nat.repeat ExtendedMantissa.shiftRightOne (k + 1) ⟨n <<< (k + 1), false, false⟩ = _
    rw [hcomm, Nat.shiftLeft_succ, hone]
    exact shift_back n k

theorem target_whole {n : Nat} (hn : 0 < n) (k : Nat) :
    Format.binary64.targetExponent (totalExponent (n <<< k) (-(k : Int))) = (n.log2 : Int) - 52 := by
  unfold Format.targetExponent totalExponent Format.mantissaBits Format.minExponent
  rw [log2_shift hn]
  dsimp only
  omega

theorem shift_whole {n : Nat} (hn : 0 < n) {k : Nat} (hk : 52 - n.log2 ≤ k) (hlt : n.log2 ≤ 52) :
    shiftToTargetExponent .binary64 (n <<< k) (-(k : Int)) .exact =
      (⟨n <<< (52 - n.log2), false, false⟩, (n.log2 : Int) - 52) := by
  have hamount : ((n.log2 : Int) - 52 - -(k : Int)).toNat = k - (52 - n.log2) := by omega
  have hsplit : n <<< k = (n <<< (52 - n.log2)) <<< (k - (52 - n.log2)) := by
    rw [← Nat.shiftLeft_add]
    congr 1
    omega
  unfold shiftToTargetExponent shiftToExponent
  rw [target_whole hn]
  dsimp only
  rw [hamount, ExtendedMantissa.ofMantissaAndAccuracy, hsplit, shift_back]
  congr 1
  omega

/-! ## Rounding, packing and unpacking -/

theorem log2_le {n : Nat} (hn : 0 < n) (hlt : n < 9007199254740992) : n.log2 ≤ 52 :=
  Nat.le_of_lt_succ ((Nat.log2_lt (Nat.pos_iff_ne_zero.mp hn)).mpr hlt)

theorem round_whole {n : Nat} (hn : 0 < n) (hlt : n < 9007199254740992) {k : Nat}
    (hk : 52 - n.log2 ≤ k) :
    roundWithAccuracy .binary64 .positive (n <<< k) (-(k : Int)) .exact = wholeFloat n hn := by
  have hlog := log2_le hn hlt
  have hexponent : (n.log2 : Int) - 52 = -((52 - n.log2 : Nat) : Int) := by omega
  unfold roundWithAccuracy
  rw [shift_whole hn hk hlog]
  dsimp only
  rw [hexponent]
  rw [show ExtendedMantissa.roundedMantissa ⟨n <<< (52 - n.log2), false, false⟩ =
    n <<< (52 - n.log2) from rfl, shift_whole hn (Nat.le_refl _) hlog]
  rw [dif_neg (Nat.pos_iff_ne_zero.mp (Nat.shiftLeft_pos_iff.mpr hn))]
  rfl

theorem leading_bit {m : Nat} (hm : m.log2 = 52) :
    (1#1 ++ BitVec.ofNat 52 m).toNat = m := by
  have hne : m ≠ 0 := by
    rintro rfl
    cases hm
  have hbounds := (Nat.log2_eq_iff hne).mp hm
  have hrest : m % 4503599627370496 = m - 4503599627370496 := by omega
  have hlow : m - 4503599627370496 < 2 ^ 52 := by omega
  rw [BitVec.toNat_append, BitVec.toNat_ofNat]
  show 1 <<< 52 ||| m % 4503599627370496 = m
  rw [hrest, ← Nat.shiftLeft_add_eq_or_of_lt hlow]
  show 4503599627370496 + (m - 4503599627370496) = m
  omega

theorem sign_packed (spec : Format) (sign : Sign) (e : BitVec spec.exponentBits)
    (m : BitVec spec.mantissaBitsWithoutImplicit) :
    unpackSign (packComponents spec sign e m) = sign.toBitVec := by
  apply BitVec.eq_of_getLsbD_eq
  intro i hi
  obtain rfl : i = 0 := by omega
  unfold unpackSign packComponents
  simp [BitVec.getLsbD_append, BitVec.getElem_append]

theorem pack_whole {n : Nat} (hn : 0 < n) (hlt : n < 9007199254740992) :
    UnpackedFloat.pack .binary64 (wholeFloat n hn) =
      packComponents .binary64 .positive (BitVec.ofNat _ (n.log2 + 1023))
        (BitVec.ofNat _ (n <<< (52 - n.log2))) := by
  have hlog := log2_le hn hlt
  have hbiased : ((n.log2 : Int) - 52 + Format.binary64.exponentBias +
      Format.binary64.mantissaBitsWithoutImplicit).toNat = n.log2 + 1023 := by
    show ((n.log2 : Int) - 52 + 1023 + 52).toNat = _
    omega
  have hbits : (n <<< (52 - n.log2)).log2 + 1 = Format.binary64.mantissaBits := by
    rw [log2_shift hn]
    show _ = 53
    omega
  unfold wholeFloat UnpackedFloat.pack
  dsimp only
  rw [hbiased, if_neg (by show ¬ 2048 ≤ n.log2 + 1023 + 1; omega), if_pos hbits]

theorem unpack_normal (spec : Format) (x : BitVec spec.numBits)
    (hinfinite : unpackExponent x ≠ -1#_) (hsmall : unpackExponent x ≠ 0#_) :
    ∃ h, UnpackedFloat.unpack spec x = .finite (.ofBitVec (unpackSign x))
      (1#1 ++ unpackMantissa x).toNat
      ((unpackExponent x).toNat - (spec.exponentBias + spec.mantissaBitsWithoutImplicit)) h := by
  refine ⟨?_, ?_⟩
  · rw [BitVec.toNat_append]
    exact Nat.lt_of_lt_of_le (Nat.pos_of_ne_zero (by simp)) Nat.left_le_or
  · unfold UnpackedFloat.unpack
    dsimp only
    rw [if_neg hinfinite, if_neg hsmall]

theorem unpack_pack_whole {n : Nat} (hn : 0 < n) (hlt : n < 9007199254740992) :
    (Float.Model.pack (wholeFloat n hn)).unpack = wholeFloat n hn := by
  have hlog := log2_le hn hlt
  have hbits : (n <<< (52 - n.log2)).log2 = 52 := by
    rw [log2_shift hn]
    omega
  have hexponent : (BitVec.ofNat 11 (n.log2 + 1023)).toNat = n.log2 + 1023 := by
    rw [BitVec.toNat_ofNat]
    exact Nat.mod_eq_of_lt (by omega)
  have hinfinite : BitVec.ofNat 11 (n.log2 + 1023) ≠ -1#_ := by
    intro h
    have := congrArg BitVec.toNat h
    rw [hexponent] at this
    simp at this
    omega
  have hsmall : BitVec.ofNat 11 (n.log2 + 1023) ≠ 0#_ := by
    intro h
    have := congrArg BitVec.toNat h
    rw [hexponent] at this
    simp at this
  show UnpackedFloat.unpack .binary64 (UnpackedFloat.pack .binary64 (wholeFloat n hn)) = _
  rw [pack_whole hn hlt]
  obtain ⟨_, hunpacked⟩ := unpack_normal .binary64
    (packComponents .binary64 .positive (BitVec.ofNat _ (n.log2 + 1023))
      (BitVec.ofNat _ (n <<< (52 - n.log2))))
    (by rw [unpackExponent_packComponents]; exact hinfinite)
    (by rw [unpackExponent_packComponents]; exact hsmall)
  rw [hunpacked, wholeFloat, UnpackedFloat.finite.injEq, sign_packed, unpackExponent_packComponents,
    hexponent]
  refine ⟨rfl, ?_, ?_⟩
  · rw [unpackMantissa_packComponents]
    exact leading_bit hbits
  · show ((n.log2 + 1023 : Nat) : Int) - (1023 + 52) = _
    omega

/-! ## Arithmetic -/

theorem IsWhole.of_pack {x : Float} {n : Nat} (hn : 0 < n) (hlt : n < 9007199254740992)
    (hx : x.toModel = Float.Model.pack (wholeFloat n hn)) : IsWhole x n :=
  ⟨hn, hlt, by rw [hx, unpack_pack_whole hn hlt]⟩

theorem toFloat_packed {n : Nat} (hn : 0 < n) (hlt : n < 9007199254740992) :
    n.toUInt64.toFloat.toModel = Float.Model.pack (wholeFloat n hn) := by
  have hlog := log2_le hn hlt
  have hword : n.toUInt64.toNat = n := by
    show n % 18446744073709551616 = n
    exact Nat.mod_eq_of_lt (by omega)
  have htarget : Format.binary64.targetExponent (totalExponent n 0) = (n.log2 : Int) - 52 :=
    target_whole hn 0
  have hamount : (0 - ((n.log2 : Int) - 52)).toNat = 52 - n.log2 := by omega
  show Float.Model.pack (UnpackedFloat.normalize .binary64 (n.toUInt64.toNat : Int) 0 .positive) = _
  rw [hword]
  unfold UnpackedFloat.normalize
  rw [Int.compare_eq_gt.mpr (by omega)]
  dsimp only
  unfold UnpackedFloat.round decreaseExponent
  rw [Int.toNat_natCast, htarget]
  dsimp only
  rw [hamount, Int.zero_sub, round_whole hn hlt (Nat.le_refl _)]

theorem toFloat_whole {n : Nat} (hn : 0 < n) (hlt : n < 9007199254740992) :
    IsWhole n.toUInt64.toFloat n :=
  .of_pack hn hlt (toFloat_packed hn hlt)

theorem mul_packed {x y : Float} {a b : Nat} (hx : IsWhole x a) (hy : IsWhole y b)
    (hlt : a * b < 9007199254740992) :
    (x * y).toModel = Float.Model.pack (wholeFloat (a * b) (Nat.mul_pos hx.1 hy.1)) := by
  obtain ⟨ha, halt, hxa⟩ := hx
  obtain ⟨hb, hblt, hyb⟩ := hy
  have hpos : 0 < a * b := Nat.mul_pos ha hb
  have hproduct : (a * b) <<< ((52 - a.log2) + (52 - b.log2)) =
      a <<< (52 - a.log2) * b <<< (52 - b.log2) := by
    rw [Nat.shiftLeft_eq, Nat.shiftLeft_eq, Nat.shiftLeft_eq, Nat.pow_add, Nat.mul_mul_mul_comm]
  have hexponent : -(((52 - a.log2) + (52 - b.log2) : Nat) : Int) =
      ((a.log2 : Int) - 52) + ((b.log2 : Int) - 52) := by
    have := log2_le ha halt
    have := log2_le hb hblt
    omega
  have hlogs : a.log2 + b.log2 ≤ (a * b).log2 := by
    rw [Nat.le_log2 (Nat.pos_iff_ne_zero.mp hpos), Nat.pow_add]
    exact Nat.mul_le_mul (Nat.log2_self_le (Nat.pos_iff_ne_zero.mp ha))
      (Nat.log2_self_le (Nat.pos_iff_ne_zero.mp hb))
  show Float.Model.pack (UnpackedFloat.mul .binary64 x.toModel.unpack y.toModel.unpack) =
    Float.Model.pack (wholeFloat (a * b) hpos)
  rw [hxa, hyb]
  unfold wholeFloat UnpackedFloat.mul
  dsimp only
  rw [← hproduct, ← hexponent]
  exact congrArg Float.Model.pack (round_whole hpos hlt (by omega))

theorem mul_whole {x y : Float} {a b : Nat} (hx : IsWhole x a) (hy : IsWhole y b)
    (hlt : a * b < 9007199254740992) : IsWhole (x * y) (a * b) :=
  .of_pack (Nat.mul_pos hx.1 hy.1) hlt (mul_packed hx hy hlt)

/-- Reading the digits of a whole number gives the same double as converting
the word. -/
theorem ofNat_eq_toFloat {n : Nat} (hn : 0 < n) (hlt : n < 9007199254740992) :
    (Scalar.ofNat n : Float) = n.toUInt64.toFloat := by
  have hone : IsWhole (Float.ofBits 4607182418800017408) 1 := ⟨by decide, by decide, by rfl⟩
  have hproduct : (Scalar.ofNat n : Float) =
      n.toUInt64.toFloat * Float.ofBits 4607182418800017408 := by
    show Float.ofScientific n false 0 = _
    unfold Float.ofScientific
    rw [dif_pos ⟨hlt, by decide⟩]
    rfl
  have hmul := mul_packed (toFloat_whole hn hlt) hone (by omega)
  simp only [Nat.mul_one] at hmul
  rw [hproduct]
  exact congrArg Float.ofModel (hmul.trans (toFloat_packed hn hlt).symm)

theorem toFloat_word {w : UInt64} (hw : 0 < w.toNat) (hlt : w.toNat < 9007199254740992) :
    w.toFloat = Scalar.ofNat w.toNat := by
  rw [ofNat_eq_toFloat hw hlt]
  exact congrArg UInt64.toFloat UInt64.ofNat_toNat.symm

theorem ofNat_whole {n : Nat} (hn : 0 < n) (hlt : n < 9007199254740992) :
    IsWhole (Scalar.ofNat n) n := by
  rw [ofNat_eq_toFloat hn hlt]
  exact toFloat_whole hn hlt

theorem toWord64_whole {x : Float} {n : Nat} (hx : IsWhole x n) :
    (Scalar.toWord64 x).toNat = n := by
  obtain ⟨hn, hlt, hx⟩ := hx
  have hlog := log2_le hn hlt
  have hkept : ((n.log2 : Int) - 52 - 0).toNat = 0 := by omega
  have hamount : (0 - ((n.log2 : Int) - 52)).toNat = 52 - n.log2 := by omega
  have hwhole : roundToInt .positive (n <<< (52 - n.log2)) ((n.log2 : Int) - 52) = n := by
    unfold roundToInt decreaseExponent
    dsimp only
    rw [hkept, Nat.shiftLeft_zero]
    unfold shiftToExponent
    dsimp only
    rw [show (n.log2 : Int) - 52 - ((0 : Nat) : Int) = (n.log2 : Int) - 52 from Int.sub_zero _,
      hamount, ExtendedMantissa.ofMantissaAndAccuracy, shift_back]
    rfl
  show (UInt64.ofNatClamp (x.toModel.unpack.toInt 0 (UInt64.size - 1)).toNat).toNat = n
  rw [hx]
  show (UInt64.ofNatClamp
    (roundToInt .positive (n <<< (52 - n.log2)) ((n.log2 : Int) - 52)).toNat).toNat = n
  rw [hwhole, Int.toNat_natCast]
  unfold UInt64.ofNatClamp
  rw [dif_pos (by show n < 18446744073709551616; omega)]
  rfl

theorem isFrequency_whole {x : Float} {n : Nat} (hx : IsWhole x n) :
    Scalar.isFrequency x = true := by
  obtain ⟨hn, hlt, hx⟩ := hx
  have hzero : (0.0 : Float).toModel.unpack = .zero .positive := by rfl
  have hfinite : Float.isFinite x = true := by
    show x.toModel.unpack.isFinite = true
    rw [hx]
    rfl
  have hpositive : (0.0 : Float) < x := by
    have hlt : UnpackedFloat.lt (0.0 : Float).toModel.unpack x.toModel.unpack = true := by
      rw [hx, hzero]
      rfl
    exact decide_eq_true hlt
  show (Float.isFinite x && decide ((0.0 : Float) < x)) = true
  rw [hfinite, decide_eq_true hpositive]
  rfl

end Retune
