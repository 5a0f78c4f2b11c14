import Retune.Aperture
import Retune.Clock.Combo
import Retune.Platform
import Retune.Slot

/-!
# Combo DPLLs

The clock of a Combo DPLL is its reference clock times the whole and
fractional ratio in CFGCR0. Only these two fields are retuned; CFGCR1 is
written along because the DPLL latches the pair.
-/

namespace Retune

structure ComboPll where
  index : UInt8
  cfgcr0 : Slot UInt32
  cfgcr1 : Slot UInt32
  captured : Bool
  deriving DecidableEq, Repr

namespace ComboPll

/-- The ratio of the Q divider in CFGCR1; only listed, like the three below. -/
def qdivRatio : Field := ⟨10, 8⟩
def qdivMode : Field := ⟨9, 1⟩
def kdiv : Field := ⟨6, 3⟩
def pdiv : Field := ⟨2, 4⟩

def ofRegisters (index : UInt8) (regs : DpllPair) : ComboPll :=
  ⟨index, .empty regs.cfgcr0, .empty regs.cfgcr1, false⟩

def key (p : ComboPll) : PllKey := ⟨.combo, p.index⟩

def propose (p : ComboPll) (integer fraction : UInt32) : ComboPll :=
  { p with cfgcr0 := p.cfgcr0.propose (ComboClock.withRatio p.cfgcr0.proposed integer fraction) }

def clock (p : ComboPll) (v : Version) : Float := ComboClock.ofWord (p.cfgcr0.value v)

variable {σ : Type} (h : Host σ)

def capture : Holding ComboPll σ Unit := do
  let p ← get
  let cfgcr0 ← h.read p.cfgcr0.addr
  let cfgcr1 ← h.read p.cfgcr1.addr
  set { p with
    cfgcr0 := p.cfgcr0.capture cfgcr0
    cfgcr1 := p.cfgcr1.capture cfgcr1
    captured := true }
  h.report (PllNotice.comboCaptured p.index cfgcr0 cfgcr1)

def takeTarget (target : Float) : Holding ComboPll σ Unit := do
  h.requireFrequency target "DCO target"
  let (integer, fraction) := ComboClock.ratioFor target
  modify (·.propose integer fraction)
  h.report (PllNotice.comboRetuned (← get).index target integer fraction)

def retune (p : ComboPll) (target : Float) : Fallible σ ComboPll := (takeTarget h target).leaving p

def program (p : ComboPll) (v : Version) : Fallible σ Unit := do
  h.write p.cfgcr0.addr (p.cfgcr0.value v)
  h.write p.cfgcr1.addr (p.cfgcr1.value v)

def listing (p : ComboPll) : List Notice :=
  let owner := s!"DPLL{p.index}"
  let line (label : String) (s : Slot UInt32) : Notice :=
    PllNotice.slot owner label s.addr s.found s.proposed
  let c0 := p.cfgcr0.proposed
  let c1 := p.cfgcr1.proposed
  [line "cfgcr0" p.cfgcr0, line "cfgcr1" p.cfgcr1,
    PllNotice.comboFields p.index (ComboClock.integer.get c0) (ComboClock.fraction.get c0)
      (qdivRatio.get c1) (qdivMode.get c1) (kdiv.get c1) (pdiv.get c1)]

end ComboPll

end Retune
