import Retune.Pll.Dkl

/-!
# Probing

What the registers tell about the platform: which PLL clocks an output, which
PHYs have power, and which outputs have a PLL to retune.
-/

namespace Retune.Probe

def comboBases : List UInt32 := [0x162000, 0x6C000, 0x160000, 0x161000, 0x16B000]

def dklCount : Nat := 6

/-- The power register of Combo PHY `phy`. -/
def miscRegister (phy : Nat) : UInt32 := 0x64C00 + 4 * UInt32.ofNat phy

def powerDown : UInt32 := 0x800000

def compOffset : UInt32 := 0x100

def compDone : UInt32 := 0x80000000

variable {σ : Type} (h : Host σ)

/-- The index of the PLL that clocks an output, or none when the clock is off
or the index does not fit. A Combo output is routed to a DPLL by a mux. -/
def pllIndex? (o : Output) : StateM σ (Option UInt8) := do
  if o.family = .combo then
    let word ← h.read o.route
    if word &&& (1 <<< o.gateBit) != 0 then
      h.report (ApertureNotice.clockOff o.name o.route word)
      return none
    return some ((word >>> o.muxShift) &&& 3).toUInt8
  else if o.pllNumber < 256 then return some o.pllNumber.toUInt8
  else return none

/-- Whether the divider register of a DKL PHY reads as programmed. -/
def isDklPowered (phy : UInt8) : StateM σ Bool := do
  let word ← h.read (DklPll.registerAddr phy .div0)
  return word != 0 && word != 0xFFFFFFFF

def poweredDkl : StateM σ (List UInt8) := do
  let phys ← ((List.range dklCount).map UInt8.ofNat).filterM (isDklPowered h)
  h.report (ApertureNotice.dklPowered phys)
  return phys

def isComboPowered (base : UInt32) (phy : Nat) : StateM σ Bool := do
  let misc ← h.read (miscRegister phy)
  let comp ← h.read (base + compOffset)
  h.report (ApertureNotice.comboProbed phy misc comp)
  return misc &&& powerDown == 0 && comp &&& compDone != 0

def poweredCombo : StateM σ (List UInt8) := do
  let phys ← comboBases.zipIdx.filterM fun (base, phy) => isComboPowered h base phy
  let phys := phys.map fun (_, phy) => UInt8.ofNat phy
  h.report (ApertureNotice.comboPowered phys)
  return phys

def isAdjustable (dkl : List UInt8) (o : Output) : StateM σ Bool :=
  match o.family with
  | .combo => return (← pllIndex? h o).isSome
  | .dkl => return (← pllIndex? h o).any dkl.contains
  | .c10 | .c20 | .dpMn => return true

def adjustableOutputs (platform : Platform) : StateM σ (List Output) := do
  let dkl ← poweredDkl h
  platform.outputs.filterM (isAdjustable h dkl)

end Retune.Probe
