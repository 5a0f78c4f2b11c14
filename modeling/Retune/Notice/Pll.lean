import Retune.Decimal.Fixed
import Retune.Decimal.Shortest
import Retune.Failure
import Retune.Notice.Level
import Retune.Clock.Mpll

/-!
# Notices about one PLL

`owner` names the PLL the way its family does: `DPLL1`, `DKL PHY 0`,
`C10 port 0:`.
-/

namespace Retune

open Text Decimal

inductive PllNotice where
  | invalidFrequency (what : String) (value : Float)
  | invalidShift (value : Float)
  | slot (owner label : String) (addr found proposed : UInt32)
  | comboCaptured (index : UInt8) (cfgcr0 cfgcr1 : UInt32)
  | comboRetuned (index : UInt8) (target : Float) (integer fraction : UInt32)
  | comboFields (index : UInt8)
      (integer fraction qdivRatio qdivMode kdiv pdiv : UInt32)
  | dklAllOnes (index : UInt8) (addr : UInt32)
  | dklNoPreDivider (index : UInt8)
  | dklRetuned (index : UInt8) (target : Float) (integer fraction : UInt32)
  | dklFields (index : UInt8) (preDivider integer fraction : UInt32)
  | c10Byte (port : UInt32) (i : Nat) (value : UInt8)
  | c10Retuned (port : UInt32) (before after rem den multiplier : Nat)
  | c10Fields (port fracEnabled : UInt32) (multiplier quot rem den : Nat)
      (txClockDiv hdmiDiv : UInt32)
  | c20Captured (port : UInt32) (contextB : Bool) (block : Mpll) (dividers : MpllDividers)
  | c20FractionOff (port : UInt32)
  | c20RemainderClamped (port : UInt32) (rem : Float)
  | c20Retuned (port : UInt32) (foundQuot : UInt16) (quot : UInt32) (foundRem : UInt16)
      (rem : UInt32)
  | c20Word (port : UInt32) (label : String) (addr : UInt32) (value : UInt16)
  | pipeOutOfRange (pipe : UInt8)
  | linkSlot (pipe : UInt8) (label : String) (addr found proposed : UInt32)

namespace PllNotice

def level : PllNotice → Level
  | invalidFrequency .. | invalidShift .. | dklAllOnes .. | dklNoPreDivider ..
  | pipeOutOfRange .. => .error
  | c20FractionOff .. => .warn
  | c20Retuned .. => .info
  | _ => .debug

def dividersText (f : MpllDividers) : String :=
  let enabled := if f.fracEnabled then "true" else "false"
  s!"MpllFields \x7b frac_en: {enabled}, fb_clk_div4_en: {f.feedbackDiv4}, " ++
    s!"tx_rate: {f.txRate}, tx_rate_mult: {f.txRateMult}, tx_clk_div: {f.txClockDiv}, " ++
    s!"ref_clk_div: {f.refClockDiv}, multiplier: {f.multiplier} \x7d"

def text : PllNotice → String
  | invalidFrequency what value => s!"Invalid {what}: {shortest value}"
  | invalidShift value => s!"Invalid shift: {shortest value}"
  | slot owner label addr found proposed =>
    s!"{owner} {label} @{hex addr.toNat}: orig {hex found.toNat} mod {hex proposed.toNat}"
  | comboCaptured index cfgcr0 cfgcr1 =>
    s!"DPLL{index}: cfgcr0 {hex cfgcr0.toNat} cfgcr1 {hex cfgcr1.toNat}"
  | comboRetuned index target integer fraction =>
    s!"DPLL{index}: target {fixed 3 target} kHz -> " ++
      s!"integer {hex integer.toNat} fraction {hex fraction.toNat}"
  | comboFields index integer fraction qdivRatio qdivMode kdiv pdiv =>
    s!"DPLL{index}: dco_integer {integer} dco_fraction {hex fraction.toNat} " ++
      s!"qdiv_ratio {qdivRatio} qdiv_mode {qdivMode} kdiv {kdiv} pdiv {pdiv}"
  | dklAllOnes index addr => s!"DKL PHY {index}: register {hex addr.toNat} reads all ones"
  | dklNoPreDivider index => s!"DKL PHY {index}: feedback pre-divider is zero"
  | dklRetuned index target integer fraction =>
    s!"DKL PHY {index}: target {fixed 4 target} MHz -> " ++
      s!"integer {hex integer.toNat} fraction {hex fraction.toNat}"
  | dklFields index preDivider integer fraction =>
    s!"DKL PHY {index}: prediv {preDivider} integer {integer} fraction {hex fraction.toNat}"
  | c10Byte port i value => s!"C10 port {port}: pll_state[{i}] = {hex value.toNat}"
  | c10Retuned port before after rem den multiplier =>
    s!"C10 port {port}: quotient {hex before} -> {hex after}, remainder {hex rem}, " ++
      s!"denominator {hex den}, multiplier {hex multiplier}"
  | c10Fields port fracEnabled multiplier quot rem den txClockDiv hdmiDiv =>
    s!"C10 port {port}: fracen {fracEnabled} multiplier {multiplier} quot {hex quot} " ++
      s!"rem {hex rem} den {hex den} txclkdiv {txClockDiv} hdmidiv {hdmiDiv}"
  | c20Captured port contextB block dividers =>
    let context := if contextB then "B" else "A"
    s!"C20 port {port}: context {context} MPLL{block.name} {dividersText dividers}"
  | c20FractionOff port =>
    s!"C20 port {port}: fractional divider disabled, new quotient has no effect"
  | c20RemainderClamped port rem => s!"C20 port {port}: remainder {fixed 0 rem} clamped to 65535"
  | c20Retuned port foundQuot quot foundRem rem =>
    s!"C20 port {port}: quot {hex foundQuot.toNat} -> {hex quot.toNat}, " ++
      s!"rem {hex foundRem.toNat} -> {hex rem.toNat}"
  | c20Word port label addr value =>
    s!"C20 port {port}: {label} @{hex addr.toNat} = {hex value.toNat}"
  | pipeOutOfRange pipe => s!"DP M/N: pipe {pipe} out of range"
  | linkSlot pipe label addr found proposed =>
    s!"Pipe {pipe} link {label} @{hex addr.toNat}: orig {hex found.toNat} ({found}) " ++
      s!"mod {hex proposed.toNat} ({proposed})"

end PllNotice

end Retune
