import Retune.Field
import Retune.Scalar

/-!
# The clock of a C20 PLL

A C20 PHY has two MPLL blocks and two contexts for each. This module says
where their configuration words lie, and which clock the words of a block
encode.
-/

namespace Retune

/-- The block that drives the transmitter. -/
inductive Mpll where
  | a
  | b
  deriving DecidableEq, Repr

namespace Mpll

def name : Mpll → String
  | a => "A"
  | b => "B"

/-- The address of the first configuration word of a context; word `i` is `i`
below it. -/
def contextTop : Mpll → Bool → UInt32
  | a, false => 0xCCF0
  | a, true => 0xCCE5
  | b, false => 0xCB5A
  | b, true => 0xCB4E

def fractionAddrs : Mpll → UInt32 × UInt32
  | a => (0x130, 0x131)
  | b => (0x13C, 0x13D)

/-- Writing one there loads a new fraction. -/
def updateAddr : Mpll → UInt16
  | a => 0x110
  | b => 0x111

end Mpll

/-- Divider fields of the block in use, as found at capture. -/
structure MpllDividers where
  fracEnabled : Bool
  feedbackDiv4 : UInt32
  txRate : UInt32
  txRateMult : UInt32
  txClockDiv : UInt32
  refClockDiv : UInt32
  multiplier : UInt32
  deriving DecidableEq, Repr

namespace MpllDividers

def zero : MpllDividers := ⟨false, 0, 0, 0, 0, 0, 0⟩

/-- Reads the fields from the first word of the transmitter context and from
words 0, 1 and 6 of the block. -/
def decode (block : Mpll) (tx0 cfg0 cfg1 cfg6 : UInt16) : MpllDividers :=
  let txRate := (Field.mk 0 3).get tx0.toUInt32
  let multiplier := (Field.mk 0 12).get cfg0.toUInt32
  let refClockDiv := (Field.mk 10 3).get cfg6.toUInt32
  match block with
  | .a =>
    { fracEnabled := (Field.mk 14 1).isSet cfg6.toUInt32
      feedbackDiv4 := (Field.mk 13 1).get cfg0.toUInt32
      txRate, txRateMult := 1
      txClockDiv := (Field.mk 8 3).get cfg1.toUInt32
      refClockDiv, multiplier }
  | .b =>
    { fracEnabled := (Field.mk 13 1).isSet cfg6.toUInt32
      feedbackDiv4 := 0
      txRate, txRateMult := 1
      txClockDiv := (Field.mk 13 3).get cfg0.toUInt32
      refClockDiv, multiplier }

section
variable {α : Type} [Scalar α]

def twoTo (n : UInt32) : α := Scalar.ofNat (1 <<< n).toNat

def refKhz (f : MpllDividers) : α :=
  (38400.0 : α) * twoTo (1 + f.feedbackDiv4) / twoTo f.refClockDiv

def outputDivisor (f : MpllDividers) : α := twoTo f.txRate * twoTo f.txClockDiv / twoTo f.txRateMult

/-- The whole part of the feedback ratio, in units of the fraction. -/
def wholeRatio (f : MpllDividers) : α := Scalar.ofNat (f.multiplier <<< 15).toNat

def clock (f : MpllDividers) (quot rem den : UInt16) : α :=
  let frac : α :=
    if f.fracEnabled && den != 0 then
      Scalar.ofNat quot.toNat + Scalar.ofNat rem.toNat / Scalar.ofNat den.toNat
    else (0.0 : α)
  let vco := f.refKhz * (f.wholeRatio + frac) / twoTo 17 / (10.0 : α)
  vco / f.outputDivisor

def fractionFor (f : MpllDividers) (target : α) : α :=
  target * f.outputDivisor * (10.0 : α) * twoTo 17 / f.refKhz - f.wholeRatio

/-- The quotient for `target` and what is left of the fraction, in units of
`1 / den`. -/
def quotientFor (f : MpllDividers) (target : α) (den : UInt16) : UInt32 × α :=
  let frac := f.fractionFor target
  let quot := Scalar.toField (Scalar.floor frac) 0xFFFF
  (quot, (frac - Scalar.ofNat quot.toNat) * Scalar.ofNat den.toNat)

end

end MpllDividers

end Retune
