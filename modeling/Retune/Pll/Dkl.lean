import Retune.Aperture
import Retune.Clock.Dkl
import Retune.Platform
import Retune.Slot

/-!
# DKL PLLs

The PLL of a Type-C PHY that is reached through plain registers. Its clock is
the reference clock times the pre-divider times the feedback ratio; a new
ratio needs some auxiliary fields in place for the PLL to lock again.
-/

namespace Retune

inductive DklRegister where
  | div0
  | ssc
  | bias
  | serializer
  | dco
  deriving DecidableEq, Repr

namespace DklRegister

def name : DklRegister → String
  | div0 => "div0"
  | ssc => "ssc"
  | bias => "bias"
  | serializer => "serializer"
  | dco => "dco"

def offset : DklRegister → UInt32
  | div0 => 0x200
  | ssc => 0x210
  | bias => 0x214
  | serializer => 0x220
  | dco => 0x224

def readOrder : List DklRegister := [div0, ssc, bias, serializer, dco]

def writeOrder : List DklRegister := [div0, serializer, bias, ssc, dco]

end DklRegister

structure DklPll where
  index : UInt8
  div0 : Slot UInt32
  ssc : Slot UInt32
  bias : Slot UInt32
  serializer : Slot UInt32
  dco : Slot UInt32
  captured : Bool
  deriving DecidableEq, Repr

namespace DklPll

def sscStepLength : Field := ⟨29, 3⟩

def sscEnable : Field := ⟨13, 1⟩

def serializerDiv : Field := ⟨9, 1⟩

def serializerMode : Field := ⟨0, 3⟩

def dcoEnable : Field := ⟨2, 1⟩

def base (index : UInt8) : UInt32 := 0x168000 + 0x1000 * index.toUInt32

def registerAddr (index : UInt8) (r : DklRegister) : UInt32 := base index + r.offset

def ofIndex (index : UInt8) : DklPll :=
  let slot (r : DklRegister) : Slot UInt32 := .empty (registerAddr index r)
  ⟨index, slot .div0, slot .ssc, slot .bias, slot .serializer, slot .dco, false⟩

def key (p : DklPll) : PllKey := ⟨.dkl, p.index⟩

def slot (p : DklPll) : DklRegister → Slot UInt32
  | .div0 => p.div0
  | .ssc => p.ssc
  | .bias => p.bias
  | .serializer => p.serializer
  | .dco => p.dco

def setSlot (p : DklPll) (r : DklRegister) (s : Slot UInt32) : DklPll :=
  match r with
  | .div0 => { p with div0 := s }
  | .ssc => { p with ssc := s }
  | .bias => { p with bias := s }
  | .serializer => { p with serializer := s }
  | .dco => { p with dco := s }

/-- Proposes a ratio and what a new lock needs. -/
def propose (p : DklPll) (integer fraction : UInt32) : DklPll :=
  { p with
    div0 := p.div0.propose (DklClock.integer.set p.div0.proposed integer)
    bias := p.bias.propose (DklClock.fraction.set p.bias.proposed fraction)
    serializer := p.serializer.propose
      (serializerDiv.set (serializerMode.set p.serializer.proposed 0) 1)
    ssc := p.ssc.propose (sscEnable.set (sscStepLength.set p.ssc.proposed 2) 1)
    dco := p.dco.propose (dcoEnable.set p.dco.proposed 1) }

def clock (p : DklPll) (v : Version) : Float := DklClock.ofWords (p.div0.value v) (p.bias.value v)

variable {σ : Type} (h : Host σ)

/-- Reads one register into its slot. A PHY without power reads as all ones. -/
def captureRegister (r : DklRegister) : Holding DklPll σ Unit := do
  let p ← get
  let addr := (p.slot r).addr
  let word ← h.read addr
  if word = 0xFFFFFFFF then
    h.report (PllNotice.dklAllOnes p.index addr)
    throw (.allOnes addr)
  set (p.setSlot r ((p.slot r).capture word))

/-- Reads all registers into the slots, up to the first that is all ones. -/
def capture : Holding DklPll σ Unit := do
  modify fun p => { p with captured := false }
  DklRegister.readOrder.forM (captureRegister h)
  modify fun p => { p with captured := true }

def takeTarget (target : Float) : Holding DklPll σ Unit := do
  h.requireFrequency target "DKL target"
  let p ← get
  let preDiv := DklClock.preDivider.get p.div0.proposed
  if preDiv = 0 then
    h.report (PllNotice.dklNoPreDivider p.index)
    throw (.invalidArgument "DKL pre-divider is zero")
  let (integer, fraction) := DklClock.ratioFor target preDiv
  set (p.propose integer fraction)
  h.report (PllNotice.dklRetuned p.index target integer fraction)

def retune (p : DklPll) (target : Float) : Fallible σ DklPll := (takeTarget h target).leaving p

def program (p : DklPll) (v : Version) : Fallible σ Unit :=
  DklRegister.writeOrder.forM fun r => h.write (p.slot r).addr ((p.slot r).value v)

def listing (p : DklPll) : List Notice :=
  let owner := s!"DKL PHY {p.index}"
  let lines := DklRegister.readOrder.map fun r =>
    let s := p.slot r
    Notice.pll (.slot owner r.name s.addr s.found s.proposed)
  let fields := PllNotice.dklFields p.index (DklClock.preDivider.get p.div0.proposed)
    (DklClock.integer.get p.div0.proposed) (DklClock.fraction.get p.bias.proposed)
  lines ++ [Notice.pll fields]

end DklPll

end Retune
