import Retune.Ownership
import Retune.Pll
import Retune.Probe

/-!
# Opening PLLs

The key of a PLL is claimed before anything can be done with it, and whoever has
the PLL has the guard. An output leads to its PLL by way of the current routing.
-/

namespace Retune

structure OpenPll where
  pll : Pll
  guard : Guard

namespace Pll

variable {σ : Type} (h : Host σ)

/-- Claims the key of a PLL and hands both over. -/
def owned (p : Pll) : Holding Registry σ OpenPll := do
  let guard ← claimPll h.toEnvironment p.key
  return ⟨p, guard⟩

def openLink (pipe : UInt8) : Holding Registry σ OpenPll := do
  if LinkRatio.pipeCount ≤ pipe then
    h.report (PllNotice.pipeOutOfRange pipe)
    throw (.invalidArgument "pipe out of range")
  owned h (.dpMn (.ofPipe pipe))

/-- Opens the PLL of a family by its index there; C10 and C20 PLLs go by the
port of the output instead. -/
def openIndex (o : Output) (platform : Platform) (index : UInt8) : Holding Registry σ OpenPll :=
  match o.family with
  | .combo =>
    match platform.dplls[index.toNat]? with
    | some regs => owned h (.combo (.ofRegisters index regs))
    | none => throw (.invalidArgument "DPLL index out of range")
  | .dkl => owned h (.dkl (.ofIndex index))
  | .c10 => owned h (.c10 (.ofBus (.ofPort o.port)))
  | .c20 => owned h (.c20 (.ofBus (.ofPort o.port)))
  | .dpMn => openLink h index

def openFor (o : Output) (platform : Platform) : Holding Registry σ OpenPll := do
  match ← Probe.pllIndex? h o with
  | none =>
    h.report (ClaimNotice.noRoute o.name)
    throw .noPll
  | some index =>
    h.report (ClaimNotice.routed o.name ⟨o.family, index⟩)
    openIndex h o platform index

end Pll

end Retune
