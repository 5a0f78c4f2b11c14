import Retune.Field
import Retune.Scalar

/-!
# The clock of a C10 PLL

Twenty bytes hold the feedback ratio and the output divider. The clock is a
quotient of whole numbers, rounded to whole kHz.
-/

namespace Retune

/-- The ratio in the bytes of a C10 PLL. The fraction is
`quot + rem / den`, in units of 1 / 65536. -/
structure C10Ratio where
  multiplier : Nat
  quot : Nat
  rem : Nat
  den : Nat
  txClockDiv : Nat
  deriving DecidableEq, Repr

namespace C10Ratio

def refKhz : Nat := 38400

def multiplierHigh : Field := ⟨0, 4⟩

def txClockDivField : Field := ⟨0, 3⟩

def hdmiDivField : Field := ⟨3, 3⟩

/-- Whether the fraction is in use, in byte 0. -/
def fracEnable : Field := ⟨4, 1⟩

def word (low high : UInt8) : Nat := high.toNat * 256 + low.toNat

def decode (bytes : Vector UInt8 20) : C10Ratio :=
  let high := (multiplierHigh.get bytes[3].toUInt32).toNat
  { multiplier := (high * 256 + bytes[2].toNat) / 2 + 16
    quot := word bytes[11] bytes[12]
    rem := word bytes[13] bytes[14]
    den := word bytes[9] bytes[10]
    txClockDiv := (txClockDivField.get bytes[15].toUInt32).toNat }

/-- `n / d` to the nearest whole number, a half upwards. -/
def divNearest (n d : Nat) : Nat := (n + d / 2) / d

def divisor (r : C10Ratio) : Nat := 10 <<< (r.txClockDiv + 16)

def remainderShare (r : C10Ratio) : Nat :=
  if r.den = 0 then 0 else divNearest (refKhz * r.rem) r.den

/-- The feedback clock times 65536. -/
def feedback (r : C10Ratio) : Nat := refKhz * (r.multiplier * 65536 + r.quot) + r.remainderShare

def clockKhz (r : C10Ratio) : Nat := divNearest r.feedback r.divisor

/-- The quotient for a feedback clock, from zero to the end of its range. -/
def quotientFor (r : C10Ratio) (feedback : Nat) : Nat :=
  min ((feedback - r.remainderShare) / refKhz - r.multiplier * 65536) 0xFFFF

def feedbackFor {α : Type} [Scalar α] (r : C10Ratio) (target : α) : Nat :=
  (Scalar.toWord64 (target * Scalar.ofNat r.divisor)).toNat

end C10Ratio

end Retune
