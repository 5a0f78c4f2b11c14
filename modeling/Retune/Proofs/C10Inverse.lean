import Retune.Proofs.DividerFields
import Retune.Proofs.WholeDoubles

/-!
# Dividers of a C10 PLL and back

The quotient for a target is cut twice on the way there, and the clock is
rounded twice on the way back. What is cut off is less than half of what the
feedback clock is divided by, so that the target comes back, or the nearer end
of what the quotient can reach.
-/

namespace Retune

namespace C10Ratio

/-! ## The ratio -/

def withQuot (r : C10Ratio) (quot : Nat) : C10Ratio := { r with quot }

theorem divisor_withQuot (r : C10Ratio) (quot : Nat) : (r.withQuot quot).divisor = r.divisor := rfl

theorem clockKhz_eq (r : C10Ratio) :
    r.clockKhz =
      divNearest (38400 * (r.multiplier * 65536 + r.quot) + r.remainderShare) r.divisor := by
  unfold clockKhz feedback refKhz
  rfl

theorem clockKhz_withQuot (r : C10Ratio) (quot : Nat) :
    (r.withQuot quot).clockKhz =
      divNearest (38400 * (r.multiplier * 65536 + quot) + r.remainderShare) r.divisor :=
  clockKhz_eq (r.withQuot quot)

theorem divisor_large (r : C10Ratio) : 655360 ≤ r.divisor := by
  have hpower : 2 ^ 16 ≤ 2 ^ (r.txClockDiv + 16) :=
    Nat.pow_le_pow_right (by decide) (Nat.le_add_left _ _)
  unfold divisor
  rw [Nat.shiftLeft_eq]
  omega

theorem divNearest_mono {n n' : Nat} (h : n ≤ n') (d : Nat) : divNearest n d ≤ divNearest n' d :=
  Nat.div_le_div_right (Nat.add_le_add_right h _)

theorem divNearest_below {n d t : Nat} (hd : 0 < d) (hn : n ≤ t * d) (ht : t * d ≤ n + d / 2) :
    divNearest n d = t := by
  unfold divNearest
  refine Nat.div_eq_of_lt_le ht ?_
  rw [Nat.succ_mul]
  omega

theorem clockKhz_mono (r : C10Ratio) {quot quot' : Nat} (h : quot ≤ quot') :
    (r.withQuot quot).clockKhz ≤ (r.withQuot quot').clockKhz := by
  rw [clockKhz_withQuot, clockKhz_withQuot]
  exact divNearest_mono (by omega) _

theorem toNat_quotientFor (r : C10Ratio) (feedback : Nat) :
    (r.quotientFor feedback).toUInt16.toNat = r.quotientFor feedback :=
  UInt16.toNat_ofNat_of_lt' (Nat.lt_succ_of_le (Nat.min_le_right _ _))

/-- The quotient for `t` gives `t` back, or the end of the range it lies beyond. -/
theorem clockKhz_quotientFor (r : C10Ratio) (t : Nat) :
    (r.withQuot (r.quotientFor (t * r.divisor))).clockKhz =
      max (r.withQuot 0).clockKhz (min t (r.withQuot 0xFFFF).clockKhz) := by
  have hd := r.divisor_large
  have hlowest := r.clockKhz_mono (Nat.zero_le 0xFFFF)
  generalize hquot : (t * r.divisor - r.remainderShare) / 38400 - r.multiplier * 65536 = quot
  have hwanted : r.quotientFor (t * r.divisor) = min quot 0xFFFF := by
    rw [← hquot]
    unfold quotientFor refKhz
    rfl
  rw [hwanted]
  by_cases hbelow : t * r.divisor < 38400 * (r.multiplier * 65536) + r.remainderShare
  -- the target is below the range
  · obtain rfl : quot = 0 := by omega
    have ht : t ≤ (r.withQuot 0).clockKhz := by
      rw [clockKhz_withQuot]
      refine (Nat.le_div_iff_mul_le (by omega)).mpr ?_
      omega
    exact (Nat.max_eq_left (Nat.le_trans (Nat.min_le_left _ _) ht)).symm
  · by_cases habove : quot < 65536
    -- it is within: what is cut off is less than 38400
    · have hback : (r.withQuot quot).clockKhz = t := by
        rw [clockKhz_withQuot]
        exact divNearest_below (by omega) (by omega) (by omega)
      have hend : quot ≤ 0xFFFF := by omega
      have hleft := r.clockKhz_mono (Nat.zero_le quot)
      have hright := r.clockKhz_mono hend
      rw [hback] at hleft hright
      rw [Nat.min_eq_left hend, hback, Nat.min_eq_left hright, Nat.max_eq_right hleft]
    -- it is at the upper end or above the range
    · have ht : (r.withQuot 0xFFFF).clockKhz ≤ t := by
        rw [clockKhz_withQuot]
        refine Nat.le_of_lt_succ ((Nat.div_lt_iff_lt_mul (by omega)).mpr ?_)
        rw [Nat.succ_mul t]
        omega
      rw [Nat.min_eq_right (Nat.le_of_lt (Nat.not_lt.mp habove)), Nat.min_eq_right ht,
        Nat.max_eq_right hlowest]

/-! ## Ratios in bytes -/

theorem fieldGet_le (f : Field) (word : UInt32) : (f.get word).toNat ≤ f.top.toNat := by
  unfold Field.get
  rw [UInt32.toNat_and]
  exact Nat.and_le_right

theorem word_lt (low high : UInt8) : word low high < 65536 := by
  have hlow := low.toNat_lt
  have hhigh := high.toNat_lt
  unfold word
  omega

theorem divNearest_le (n d : Nat) : divNearest n d ≤ n + 1 := by
  unfold divNearest
  rcases Nat.eq_zero_or_pos d with rfl | hd
  · rw [Nat.div_zero]
    exact Nat.zero_le _
  · refine Nat.div_le_of_le_mul ?_
    have hn : n ≤ d * n := Nat.le_mul_of_pos_left n hd
    rw [Nat.mul_succ]
    omega

/-- What the bytes of a file can hold. -/
structure Bounded (r : C10Ratio) : Prop where
  multiplier_ge : 16 ≤ r.multiplier
  multiplier_le : r.multiplier ≤ 2063
  quot_lt : r.quot < 65536
  rem_lt : r.rem < 65536
  txClockDiv_le : r.txClockDiv ≤ 7

theorem bounded_decode (bytes : Vector UInt8 20) : (decode bytes).Bounded := by
  have hhigh : (multiplierHigh.get bytes[3].toUInt32).toNat ≤ 15 := fieldGet_le multiplierHigh _
  have hlow := bytes[2].toNat_lt
  constructor
  case multiplier_ge => exact Nat.le_add_left 16 _
  case multiplier_le =>
    show ((multiplierHigh.get bytes[3].toUInt32).toNat * 256 + bytes[2].toNat) / 2 + 16 ≤ 2063
    omega
  case quot_lt => exact word_lt _ _
  case rem_lt => exact word_lt _ _
  case txClockDiv_le => exact fieldGet_le txClockDivField _

theorem Bounded.divisor_le {r : C10Ratio} (hr : r.Bounded) : r.divisor ≤ 83886080 := by
  have hpower : 2 ^ (r.txClockDiv + 16) ≤ 2 ^ 23 :=
    Nat.pow_le_pow_right (by decide) (Nat.add_le_add_right hr.txClockDiv_le 16)
  unfold divisor
  rw [Nat.shiftLeft_eq]
  omega

theorem Bounded.remainderShare_le {r : C10Ratio} (hr : r.Bounded) :
    r.remainderShare ≤ 38400 * 65536 := by
  have hnearest := divNearest_le (38400 * r.rem) r.den
  have hrem := hr.rem_lt
  show (if r.den = 0 then 0 else divNearest (38400 * r.rem) r.den) ≤ _
  split <;> omega

theorem Bounded.feedback_ge {r : C10Ratio} (hr : r.Bounded) : 40265318400 ≤ r.feedback := by
  have hge := hr.multiplier_ge
  show _ ≤ 38400 * (r.multiplier * 65536 + r.quot) + r.remainderShare
  omega

theorem Bounded.feedback_lt {r : C10Ratio} (hr : r.Bounded) : r.feedback < 5200000000000 := by
  have hshare := hr.remainderShare_le
  have hquot := hr.quot_lt
  have hle := hr.multiplier_le
  show 38400 * (r.multiplier * 65536 + r.quot) + r.remainderShare < _
  omega

theorem Bounded.clockKhz {r : C10Ratio} (hr : r.Bounded) :
    0 < r.clockKhz ∧ r.clockKhz * r.divisor < 9007199254740992 := by
  have hdivisor := hr.divisor_le
  have hlarge := r.divisor_large
  have hge := hr.feedback_ge
  have hlt := hr.feedback_lt
  constructor
  · exact Nat.div_pos (by omega) (by omega)
  · refine Nat.lt_of_le_of_lt (Nat.div_mul_le_self _ _) ?_
    omega

section
variable {r : C10Ratio} {t : Nat} (ht : 0 < t) (hexact : t * r.divisor < 9007199254740992)
include ht hexact

theorem whole_target : IsWhole (Scalar.ofNat t) t := by
  have hd := r.divisor_large
  have hle : t ≤ t * r.divisor := Nat.le_mul_of_pos_right _ (by omega)
  exact ofNat_whole ht (by omega)

theorem feedbackFor_whole : r.feedbackFor (Scalar.ofNat t : Float) = t * r.divisor := by
  have hd := r.divisor_large
  have hle : r.divisor ≤ t * r.divisor := Nat.le_mul_of_pos_left _ ht
  exact toWord64_whole
    (mul_whole (whole_target ht hexact) (ofNat_whole (by omega) (by omega)) hexact)

end

end C10Ratio

namespace C10Pll

/-! ## Snapshots -/

theorem word_bytes (quot : UInt16) :
    C10Ratio.word (MessageBus.lowByte quot) (MessageBus.highByte quot) = quot.toNat := by
  have hlow : (MessageBus.lowByte quot).toNat = quot.toNat % 256 := rfl
  have hhigh : (MessageBus.highByte quot).toNat = quot.toNat >>> 8 % 256 := rfl
  have hlt := quot.toNat_lt
  unfold C10Ratio.word
  rw [hlow, hhigh, Nat.shiftRight_eq_div_pow]
  omega

theorem decode_of_agree {a b : Vector UInt8 20}
    (h : ∀ i : Fin 20, i ≠ quotLow → i ≠ quotHigh → a.get i = b.get i) :
    C10Ratio.decode a = (C10Ratio.decode b).withQuot (C10Ratio.decode a).quot := by
  have h2 : a[2] = b[2] := h 2 (by decide) (by decide)
  have h3 : a[3] = b[3] := h 3 (by decide) (by decide)
  have h9 : a[9] = b[9] := h 9 (by decide) (by decide)
  have h10 : a[10] = b[10] := h 10 (by decide) (by decide)
  have h13 : a[13] = b[13] := h 13 (by decide) (by decide)
  have h14 : a[14] = b[14] := h 14 (by decide) (by decide)
  have h15 : a[15] = b[15] := h 15 (by decide) (by decide)
  simp only [C10Ratio.decode, C10Ratio.withQuot, h2, h3, h9, h10, h13, h14, h15]

theorem get_snapshot (p : C10Pll) (v : Version) (i : Fin 20) :
    (p.snapshot v).get i = (p.bytes.get i).value v :=
  Vector.getElem_map (fun x : Slot UInt8 => x.value v) i.isLt

theorem get_propose (p : C10Pll) (quot : UInt16) (i : Fin 20) :
    (p.propose quot).bytes.get i =
      if i = quotHigh then (p.bytes.get i).propose (MessageBus.highByte quot)
      else if i = quotLow then (p.bytes.get i).propose (MessageBus.lowByte quot)
      else p.bytes.get i := by
  unfold propose
  rw [get_set, get_set]
  by_cases hhigh : i = quotHigh
  · subst hhigh
    rfl
  · rw [if_neg hhigh, if_neg fun h => hhigh (Fin.ext h.symm)]
    by_cases hlow : i = quotLow
    · subst hlow
      rfl
    · rw [if_neg hlow, if_neg fun h => hlow (Fin.ext h.symm)]

theorem ratio_propose (p : C10Pll) (quot : UInt16) :
    (p.propose quot).ratio .proposed = (p.ratio .proposed).withQuot quot.toNat := by
  have hquot : ((p.propose quot).ratio .proposed).quot = quot.toNat := by
    show C10Ratio.word (((p.propose quot).snapshot .proposed).get quotLow)
      (((p.propose quot).snapshot .proposed).get quotHigh) = _
    rw [get_snapshot, get_snapshot, get_propose, get_propose]
    exact word_bytes quot
  rw [← hquot]
  refine decode_of_agree fun i hlow hhigh => ?_
  rw [get_snapshot, get_snapshot, get_propose, if_neg hhigh, if_neg hlow]

theorem ratio_found {p : C10Pll} (hp : (Pll.c10 p).InFields) :
    p.ratio .found = (p.ratio .proposed).withQuot (p.ratio .found).quot := by
  refine decode_of_agree fun i hlow hhigh => ?_
  rw [get_snapshot, get_snapshot]
  exact (hp i hlow hhigh).symm

variable {σ : Type} (h : Host σ)

theorem answer_retune (p : C10Pll) (target : Float) (s : σ) :
    ((p.retune h target).run s).1 =
      if Scalar.isFrequency target then
        .ok (p.propose
          ((p.ratio .proposed).quotientFor ((p.ratio .proposed).feedbackFor target)).toUInt16)
      else .error (.invalidArgument "C10 target") := by
  rw [retune_eq]
  unfold proposal
  rw [run_then, Environment.requireFrequency_run]
  by_cases hfrequency : Scalar.isFrequency target = true
  · rw [if_pos hfrequency, if_pos hfrequency]
    rfl
  · rw [if_neg hfrequency, if_neg hfrequency]

theorem retune_whole (p : C10Pll) {t : Nat} (ht : 0 < t)
    (hexact : t * (p.ratio .proposed).divisor < 9007199254740992) (s : σ) :
    ∃ quot s', (p.retune h (Scalar.ofNat t)).run s = (.ok (p.propose quot), s') ∧
      ((p.propose quot).ratio .proposed).clockKhz =
        max ((p.propose 0).ratio .proposed).clockKhz
          (min t ((p.propose 0xFFFF).ratio .proposed).clockKhz) := by
  have hfrequency : Scalar.isFrequency (Scalar.ofNat t : Float) = true :=
    isFrequency_whole (C10Ratio.whole_target ht hexact)
  have hword := C10Ratio.toNat_quotientFor (p.ratio .proposed) (t * (p.ratio .proposed).divisor)
  generalize hquot : (p.ratio .proposed).quotientFor (t * (p.ratio .proposed).divisor) = quot
    at hword
  refine ⟨quot.toUInt16, ((p.retune h (Scalar.ofNat t)).run s).2, Prod.ext ?_ rfl, ?_⟩
  · rw [answer_retune, if_pos hfrequency, C10Ratio.feedbackFor_whole ht hexact, hquot]
  · rw [ratio_propose, ratio_propose, ratio_propose, hword, ← hquot]
    exact C10Ratio.clockKhz_quotientFor _ t

end C10Pll

/-- Retuning to a whole number of kHz gives exactly that clock, or the end of
what the quotient can reach, whatever the bytes are and whatever was proposed
before. Retuning to a clock that was just read gives it back. -/
theorem retune_inverts {σ : Type} (h : Host σ) (p : C10Pll) (s : σ) :
    let lowest := ((p.propose 0).ratio .proposed).clockKhz
    let highest := ((p.propose 0xFFFF).ratio .proposed).clockKhz
    lowest ≤ highest ∧
      (∀ t, 0 < t → t * (p.ratio .proposed).divisor < 9007199254740992 →
        ∃ quot s', (p.retune h (Scalar.ofNat t)).run s = (.ok (p.propose quot), s') ∧
          (p.propose quot).clock .proposed = Scalar.ofNat (max lowest (min t highest))) ∧
      ∀ v, (v = .found → (Pll.c10 p).InFields) →
        ∃ quot s', (p.retune h (p.clock v)).run s = (.ok (p.propose quot), s') ∧
          (p.propose quot).clock .proposed = p.clock v := by
  intro lowest highest
  have hlowest : lowest = ((p.ratio .proposed).withQuot 0).clockKhz :=
    congrArg C10Ratio.clockKhz (p.ratio_propose 0)
  have hhighest : highest = ((p.ratio .proposed).withQuot 0xFFFF).clockKhz :=
    congrArg C10Ratio.clockKhz (p.ratio_propose 0xFFFF)
  refine ⟨?_, fun t ht hexact => ?_, fun v hv => ?_⟩
  · rw [hlowest, hhighest]
    exact C10Ratio.clockKhz_mono _ (by decide)
  · obtain ⟨quot, s', hrun, hclock⟩ := p.retune_whole h ht hexact s
    exact ⟨quot, s', hrun, congrArg Scalar.ofNat hclock⟩
  · have hratio : p.ratio v = (p.ratio .proposed).withQuot (p.ratio v).quot := by
      cases v with
      | found => exact C10Pll.ratio_found (hv rfl)
      | proposed => rfl
    have hbounded := C10Ratio.bounded_decode (p.snapshot v)
    have hquot : (p.ratio v).quot ≤ 0xFFFF := Nat.le_of_lt_succ hbounded.quot_lt
    have hdivisor : (p.ratio .proposed).divisor = (p.ratio v).divisor := by
      rw [hratio, C10Ratio.divisor_withQuot]
    have hexact := hbounded.clockKhz
    obtain ⟨quot, s', hrun, hclock⟩ := p.retune_whole h hexact.1 (by
      rw [hdivisor]
      exact hexact.2) s
    refine ⟨quot, s', hrun, congrArg Scalar.ofNat (hclock.trans ?_)⟩
    have hge : lowest ≤ (p.ratio v).clockKhz := by
      rw [hlowest, hratio]
      exact C10Ratio.clockKhz_mono _ (Nat.zero_le _)
    have hle : (p.ratio v).clockKhz ≤ highest := by
      rw [hhighest, hratio]
      exact C10Ratio.clockKhz_mono _ hquot
    show max lowest (min (p.ratio v).clockKhz highest) = (p.ratio v).clockKhz
    rw [Nat.min_eq_left hle, Nat.max_eq_right hge]

/-- A captured file whose quotient reaches from 161280 kHz to 162240 kHz, with a fraction of
64 / 263 on top. -/
def C10Pll.fractional : C10Pll :=
  let file : Vector UInt8 20 :=
    #v[0x10, 0, 0x30, 1, 0, 0, 0, 0, 0, 7, 1, 0, 0x80, 0x40, 0, 2, 0, 0, 0, 0]
  { C10Pll.ofBus (.ofPort 0) with
    bytes := Vector.ofFn fun i => (Slot.empty (byteAddr i).toUInt32).capture (file.get i) }

theorem retune_inverts_fractional :
    let p := C10Pll.fractional
    162000 * (p.ratio .proposed).divisor < 9007199254740992 ∧
      200000 * (p.ratio .proposed).divisor < 9007199254740992 ∧ (Pll.c10 p).InFields ∧
      (∃ quot s', (p.retune Bench.host (Scalar.ofNat 162000)).run Bench.ofLink =
          (.ok (p.propose quot), s') ∧
        (p.propose quot).clock .proposed = Scalar.ofNat 162000) ∧
      (∃ quot s', (p.retune Bench.host (Scalar.ofNat 200000)).run Bench.ofLink =
          (.ok (p.propose quot), s') ∧
        (p.propose quot).clock .proposed = Scalar.ofNat 162240) ∧
      ∃ quot s', (p.retune Bench.host (p.clock .found)).run Bench.ofLink =
          (.ok (p.propose quot), s') ∧
        (p.propose quot).clock .proposed = p.clock .found := by
  intro p
  have hexact : 162000 * (p.ratio .proposed).divisor < 9007199254740992 := by decide +kernel
  have hexact' : 200000 * (p.ratio .proposed).divisor < 9007199254740992 := by decide +kernel
  have hfields : (Pll.c10 p).InFields := by
    unfold Pll.InFields
    decide +kernel
  have hreached : max ((p.propose 0).ratio .proposed).clockKhz
      (min 162000 ((p.propose 0xFFFF).ratio .proposed).clockKhz) = 162000 := by decide +kernel
  have hclamped : max ((p.propose 0).ratio .proposed).clockKhz
      (min 200000 ((p.propose 0xFFFF).ratio .proposed).clockKhz) = 162240 := by decide +kernel
  obtain ⟨-, hwhole, hback⟩ := retune_inverts Bench.host p Bench.ofLink
  obtain ⟨quot, s', hrun, hclock⟩ := hwhole 162000 (by decide) hexact
  obtain ⟨quot', s'', hrun', hclock'⟩ := hwhole 200000 (by decide) hexact'
  exact ⟨hexact, hexact', hfields,
    ⟨quot, s', hrun, hclock.trans (congrArg Scalar.ofNat hreached)⟩,
    ⟨quot', s'', hrun', hclock'.trans (congrArg Scalar.ofNat hclamped)⟩, hback .found fun _ => hfields⟩

end Retune
