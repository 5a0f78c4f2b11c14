import Retune.Proofs.C10Inverse
import Retune.Proofs.CheckedWords

/-!
# The arithmetic of a C10 PLL fits in words

A clock and a quotient are computed from twenty bytes in words of 64 bits. Done
with checks, this arithmetic never stops, whatever the bytes hold, and answers
the numbers that the same formulas give without a bound. The clock lies between
480 kHz and 8388608 kHz and is exact as a double.
-/

namespace Retune

/-! ## The formulas in words -/

/-- The ratio in the bytes of a C10 PLL, in words. -/
structure C10Words where
  multiplier : UInt64
  quot : UInt64
  rem : UInt64
  den : UInt64
  txClockDiv : UInt32
  deriving DecidableEq, Repr

namespace C10Words
open Checked

def refKhz : UInt64 := 38400

def pair (high : UInt64) (low : UInt8) : Checked UInt64 := do
  return (← shiftLeft high 8) ||| low.toUInt64

def multiplierOf (high : UInt32) (low : UInt8) : Checked UInt64 := do
  add (← div (← pair high.toUInt64 low) 2) 16

def decode (bytes : Vector UInt8 20) : Checked C10Words := do
  let high := C10Ratio.multiplierHigh.get (bytes.get C10Pll.multiplierHigh).toUInt32
  let multiplier ← multiplierOf high (bytes.get C10Pll.multiplierLow)
  let quot ← pair (bytes.get C10Pll.quotHigh).toUInt64 (bytes.get C10Pll.quotLow)
  let rem ← pair (bytes.get C10Pll.remHigh).toUInt64 (bytes.get C10Pll.remLow)
  let den ← pair (bytes.get C10Pll.denHigh).toUInt64 (bytes.get C10Pll.denLow)
  let txClockDiv := C10Ratio.txClockDivField.get (bytes.get C10Pll.dividerByte).toUInt32
  return ⟨multiplier, quot, rem, den, txClockDiv⟩

def divNearest (n d : UInt64) : Checked UInt64 := do
  div (← add n (← div d 2)) d

def divisor (w : C10Words) : Checked UInt64 := shiftLeft 10 (w.txClockDiv.toNat + 16)

def remainderShare (w : C10Words) : Checked UInt64 := do
  if w.den = 0 then return 0
  else divNearest (← mul refKhz w.rem) w.den

def clockKhz (w : C10Words) : Checked UInt64 := do
  let units ← add (← shiftLeft w.multiplier 16) w.quot
  let feedback ← add (← mul refKhz units) (← w.remainderShare)
  divNearest feedback (← w.divisor)

def quotientFor (w : C10Words) (feedback : UInt64) : Checked UInt16 := do
  let units ← div (minus feedback (← w.remainderShare)) refKhz
  let quot := minus units (← shiftLeft w.multiplier 16)
  return (min quot 0xFFFF).toUInt16

def clockOf (bytes : Vector UInt8 20) : Checked UInt64 := do
  (← decode bytes).clockKhz

def quotientOf (bytes : Vector UInt8 20) (target : Float) : Checked UInt16 := do
  let w ← decode bytes
  let divisor ← w.divisor
  w.quotientFor (Scalar.toWord64 (target * divisor.toFloat))

def toRatio (w : C10Words) : C10Ratio :=
  ⟨w.multiplier.toNat, w.quot.toNat, w.rem.toNat, w.den.toNat, w.txClockDiv.toNat⟩

/-! ## Each formula fits -/

theorem fits_pair {high : UInt64} (hhigh : high.toNat < 256) (low : UInt8) :
    Fits (pair high low) (·.toNat = high.toNat * 256 + low.toNat) := by
  have hlow := low.toNat_lt
  have hshift : high.toNat <<< 8 = high.toNat * 256 := Nat.shiftLeft_eq _ _
  have hsize : high.toNat <<< 8 < UInt64.size := lt_size (by omega)
  refine (fits_shiftLeft (by decide) hsize).bind fun w hw => fits_pure ?_
  show (w ||| low.toUInt64).toNat = _
  rw [UInt64.toNat_or, hw, UInt8.toNat_toUInt64, ← Nat.shiftLeft_add_eq_or_of_lt hlow, hshift]

theorem fits_word (high low : UInt8) :
    Fits (pair high.toUInt64 low) (·.toNat = C10Ratio.word low high) := by
  have hhigh : high.toUInt64.toNat < 256 := high.toNat_lt
  exact fits_pair hhigh low

theorem fits_multiplierOf {high : UInt32} (hhigh : high.toNat ≤ 15) (low : UInt8) :
    Fits (multiplierOf high low) (·.toNat = (high.toNat * 256 + low.toNat) / 2 + 16) := by
  have hwide : high.toUInt64.toNat = high.toNat := UInt32.toNat_toUInt64 high
  have hlow := low.toNat_lt
  have hsixteen : (16 : UInt64).toNat = 16 := rfl
  refine (fits_pair (by omega) low).bind fun twice htwice => ?_
  refine (fits_div (by decide)).bind fun half hhalf => ?_
  replace hhalf : half.toNat = twice.toNat / 2 := hhalf
  have hsum : half.toNat + (16 : UInt64).toNat < UInt64.size := lt_size (by omega)
  refine (fits_add hsum).imp fun multiplier h => h.trans ?_
  rw [hhalf, htwice, hwide, hsixteen]

theorem fits_decode (bytes : Vector UInt8 20) :
    Fits (decode bytes) (·.toRatio = C10Ratio.decode bytes) := by
  have hfield (b : UInt8) : (C10Ratio.multiplierHigh.get b.toUInt32).toNat ≤ 15 :=
    C10Ratio.fieldGet_le C10Ratio.multiplierHigh _
  refine (fits_multiplierOf (hfield _) _).bind fun multiplier hmultiplier => ?_
  refine (fits_word _ _).bind fun quot hquot => ?_
  refine (fits_word _ _).bind fun rem hrem => ?_
  refine (fits_word _ _).bind fun den hden => fits_pure ?_
  simp only [toRatio, hmultiplier, hquot, hrem, hden]
  rfl

theorem fits_divNearest {n d : UInt64} (hd : 0 < d.toNat)
    (h : n.toNat + d.toNat / 2 < UInt64.size) :
    Fits (divNearest n d) (·.toNat = C10Ratio.divNearest n.toNat d.toNat) := by
  refine (fits_div (by decide)).bind fun half hhalf => ?_
  replace hhalf : half.toNat = d.toNat / 2 := hhalf
  rw [← hhalf] at h
  refine (fits_add h).bind fun sum hsum => ?_
  refine (fits_div hd).imp fun w hw => hw.trans ?_
  rw [hsum, hhalf]
  rfl

section
variable {w : C10Words} (hw : w.toRatio.Bounded)
include hw

theorem fits_divisor : Fits w.divisor (·.toNat = w.toRatio.divisor) := by
  have hamount : w.toRatio.txClockDiv + 16 < 64 := by
    have hdiv := hw.txClockDiv_le
    omega
  have hsize : w.toRatio.divisor < UInt64.size := by
    have hle := hw.divisor_le
    exact lt_size (by omega)
  exact fits_shiftLeft hamount hsize

theorem fits_units :
    Fits (shiftLeft w.multiplier 16) (·.toNat = w.toRatio.multiplier * 65536) := by
  have hle : w.multiplier.toNat ≤ 2063 := hw.multiplier_le
  have hshift : w.multiplier.toNat <<< 16 = w.multiplier.toNat * 65536 := Nat.shiftLeft_eq _ _
  have hsize : w.multiplier.toNat <<< 16 < UInt64.size := lt_size (by omega)
  exact (fits_shiftLeft (by decide) hsize).imp fun _ h => h.trans hshift

variable (hden : w.toRatio.den < 65536)
include hden

/-- The denominator may be zero, where nothing is divided, or one, where the
share is largest. -/
theorem fits_remainderShare : Fits w.remainderShare (·.toNat = w.toRatio.remainderShare) := by
  have href : refKhz.toNat = 38400 := rfl
  have hrem : w.rem.toNat < 65536 := hw.rem_lt
  replace hden : w.den.toNat < 65536 := hden
  have hshare : w.toRatio.remainderShare =
      if w.den.toNat = 0 then 0 else C10Ratio.divNearest (38400 * w.rem.toNat) w.den.toNat := rfl
  unfold remainderShare
  rw [hshare]
  by_cases hzero : w.den = 0
  · rw [if_pos hzero, hzero]
    exact fits_pure rfl
  · have hpos : w.den.toNat ≠ 0 := fun h => hzero (UInt64.toNat_inj.mp h)
    have hproduct : refKhz.toNat * w.rem.toNat < UInt64.size := by
      rw [href]
      exact lt_size (by omega)
    rw [if_neg hzero, if_neg hpos]
    refine (fits_mul hproduct).bind fun n hn => ?_
    rw [href] at hn
    rw [← hn]
    exact fits_divNearest (Nat.pos_of_ne_zero hpos) (lt_size (by omega))

theorem fits_clockKhz : Fits w.clockKhz (·.toNat = w.toRatio.clockKhz) := by
  have href : refKhz.toNat = 38400 := rfl
  have hle := hw.multiplier_le
  have hquot : w.quot.toNat < 65536 := hw.quot_lt
  have hfeedback := hw.feedback_lt
  have hdivisor := hw.divisor_le
  have hlarge := w.toRatio.divisor_large
  refine (fits_units hw).bind fun whole hwhole => ?_
  have hunitsSize : whole.toNat + w.quot.toNat < UInt64.size := lt_size (by omega)
  refine (fits_add hunitsSize).bind fun units hunits => ?_
  have hscaledSize : refKhz.toNat * units.toNat < UInt64.size := by
    rw [href]
    exact lt_size (by omega)
  refine (fits_mul hscaledSize).bind fun scaled hscaled => ?_
  refine (fits_remainderShare hw hden).bind fun share hshare => ?_
  have hsum : scaled.toNat + share.toNat = w.toRatio.feedback := by
    rw [hscaled, hunits, hwhole, href, hshare]
    rfl
  have hsumSize : scaled.toNat + share.toNat < UInt64.size := lt_size (by omega)
  refine (fits_add hsumSize).bind fun feedback hsummed => ?_
  rw [hsum] at hsummed
  refine (fits_divisor hw).bind fun d hd => ?_
  have hnearest : feedback.toNat + d.toNat / 2 < UInt64.size := lt_size (by omega)
  refine (fits_divNearest (by omega) hnearest).imp fun khz hkhz => hkhz.trans ?_
  rw [hsummed, hd]
  rfl

theorem fits_quotientFor (feedback : UInt64) :
    Fits (w.quotientFor feedback) (·.toNat = w.toRatio.quotientFor feedback.toNat) := by
  refine (fits_remainderShare hw hden).bind fun share hshare => ?_
  refine (fits_div (by decide)).bind fun units hunits => ?_
  refine (fits_units hw).bind fun whole hwhole => fits_pure ?_
  have hquot : (minus units whole).toNat =
      (feedback.toNat - w.toRatio.remainderShare) / 38400 - w.toRatio.multiplier * 65536 := by
    rw [toNat_minus, hunits, toNat_minus, hshare, hwhole]
    rfl
  show (min (minus units whole) 0xFFFF).toUInt16.toNat = _
  rw [UInt64.toNat_toUInt16, toNat_min, hquot]
  -- what is no more than the top of the field loses no bit
  have htop := Nat.min_le_right
    ((feedback.toNat - w.toRatio.remainderShare) / 38400 - w.toRatio.multiplier * 65536) 65535
  exact Nat.mod_eq_of_lt (Nat.lt_succ_of_le htop)

end

/-! ## A whole file -/

theorem den_lt (bytes : Vector UInt8 20) : (C10Ratio.decode bytes).den < 65536 :=
  C10Ratio.word_lt _ _

theorem fits_clockOf (bytes : Vector UInt8 20) :
    Fits (clockOf bytes) (·.toNat = (C10Ratio.decode bytes).clockKhz) := by
  refine (fits_decode bytes).bind fun w hw => ?_
  have hbounded := C10Ratio.bounded_decode bytes
  have hden := den_lt bytes
  rw [← hw] at hbounded hden ⊢
  exact fits_clockKhz hbounded hden

theorem fits_quotientOf (bytes : Vector UInt8 20) (target : Float) :
    Fits (quotientOf bytes target) (·.toNat =
      (C10Ratio.decode bytes).quotientFor ((C10Ratio.decode bytes).feedbackFor target)) := by
  refine (fits_decode bytes).bind fun w hw => ?_
  have hbounded := C10Ratio.bounded_decode bytes
  have hden := den_lt bytes
  rw [← hw] at hbounded hden ⊢
  refine (fits_divisor hbounded).bind fun d hd => ?_
  have hle := hbounded.divisor_le
  have hlarge := w.toRatio.divisor_large
  have hdouble : d.toFloat = Scalar.ofNat w.toRatio.divisor :=
    (toFloat_word (by omega) (by omega)).trans (congrArg Scalar.ofNat hd)
  rw [hdouble]
  exact fits_quotientFor hbounded hden _

end C10Words

namespace C10Ratio

variable {r : C10Ratio}

theorem Bounded.clockKhz_ge (hr : r.Bounded) : 480 ≤ r.clockKhz := by
  have hge := hr.feedback_ge
  have hdivisor := hr.divisor_le
  have hlarge := r.divisor_large
  refine (Nat.le_div_iff_mul_le (by omega)).mpr ?_
  omega

theorem Bounded.clockKhz_lt (hr : r.Bounded) : r.clockKhz < 8388608 := by
  have hlt := hr.feedback_lt
  have hlarge := r.divisor_large
  refine (Nat.div_lt_iff_lt_mul (by omega)).mpr ?_
  omega

end C10Ratio

/-- No step of the arithmetic on the bytes of a C10 PLL leaves its word, shifts too
far or divides by zero, whatever the bytes are, as found or as proposed. The clock is
an accepted frequency that is exact as a double, and a target that is accepted gets
the quotient that the words give. -/
theorem c10_arithmetic_fits {σ : Type} (h : Host σ) (p : C10Pll) (s : σ) :
    (∀ v, ∃ khz, C10Words.clockOf (p.snapshot v) = .ok khz ∧
      khz.toNat = (p.ratio v).clockKhz ∧ 480 ≤ khz.toNat ∧ khz.toNat < 8388608 ∧
      p.clock v = khz.toFloat ∧ Scalar.isFrequency (p.clock v) = true ∧
      IsWhole (p.clock v) khz.toNat ∧ Scalar.toWord64 (p.clock v) = khz) ∧
    ∀ target, ∃ quot, C10Words.quotientOf (p.snapshot .proposed) target = .ok quot ∧
      quot.toNat = (p.ratio .proposed).quotientFor ((p.ratio .proposed).feedbackFor target) ∧
      ((p.retune h target).run s).1 =
        if Scalar.isFrequency target then .ok (p.propose quot)
        else .error (.invalidArgument "C10 target") := by
  constructor
  · intro v
    obtain ⟨khz, hok, hkhz⟩ := C10Words.fits_clockOf (p.snapshot v)
    have hbounded := C10Ratio.bounded_decode (p.snapshot v)
    have hge := hbounded.clockKhz_ge
    have hlt := hbounded.clockKhz_lt
    rw [← hkhz] at hge hlt
    have hclock : p.clock v = Scalar.ofNat khz.toNat := (congrArg Scalar.ofNat hkhz).symm
    have hwhole : IsWhole (p.clock v) khz.toNat := by
      rw [hclock]
      exact ofNat_whole (by omega) (by omega)
    exact ⟨khz, hok, hkhz, hge, hlt, hclock.trans (toFloat_word (by omega) (by omega)).symm,
      isFrequency_whole hwhole, hwhole, UInt64.toNat_inj.mp (toWord64_whole hwhole)⟩
  · intro target
    obtain ⟨quot, hok, hquot⟩ := C10Words.fits_quotientOf (p.snapshot .proposed) target
    have hword : ((p.ratio .proposed).quotientFor
        ((p.ratio .proposed).feedbackFor target)).toUInt16 = quot :=
      (congrArg Nat.toUInt16 hquot.symm).trans UInt16.ofNat_toNat
    refine ⟨quot, hok, hquot, ?_⟩
    rw [C10Pll.answer_retune, hword]

-- the least clock of all, and the greatest, which takes a denominator of one
example : C10Words.clockOf ((Vector.replicate 20 0).set C10Pll.dividerByte 7) = .ok 480 := rfl

example :
    let bytes := (Vector.replicate 20 0xFF).set C10Pll.dividerByte 0
    C10Words.clockOf ((bytes.set C10Pll.denLow 1).set C10Pll.denHigh 0) = .ok 7929600 := rfl

end Retune
