import Retune.Bus.Access
import Retune.Clock.Mpll
import Retune.Slot

/-!
# C20 PLLs

A C20 PHY keeps its configuration in SRAM behind the message bus. Which
context and which MPLL block are in use is read first and decides where the
rest lies. The fraction in use is in registers of its own, next to those of
the context, and only these are retuned.
-/

namespace Retune

/-- A C20 PLL with the slots of its configuration words. Words 8 and 9 of
`mpll` are the quotient and remainder in use. -/
structure C20Pll where
  bus : MessageBus
  contextB : Bool
  block : Mpll
  tx : Vector (Slot UInt16) 3
  cmn : Vector (Slot UInt16) 4
  mpll : Vector (Slot UInt16) 10
  dividers : MpllDividers
  captured : Bool
  deriving DecidableEq, Repr

namespace C20Pll

/-- Bit 0 there tells the contexts apart. -/
def serdesRateAddr : UInt16 := 0xD00

/-- Bit 7 of the first transmitter word tells the blocks apart. -/
def usesBlockB : Field := ⟨7, 1⟩

def txAddr (contextB : Bool) (i : Fin 3) : UInt32 :=
  (if contextB then 0xCF2A else 0xCF2E) - UInt32.ofNat i

def cmnAddr (contextB : Bool) (i : Fin 4) : UInt32 :=
  (if contextB then 0xCDA5 else 0xCDAA) - UInt32.ofNat i

def mpllAddr (block : Mpll) (contextB : Bool) (i : Fin 10) : UInt32 :=
  block.contextTop contextB - UInt32.ofNat i

def ofBus (bus : MessageBus) : C20Pll :=
  { bus
    contextB := false
    block := .a
    tx := .replicate 3 (.empty 0)
    cmn := .replicate 4 (.empty 0)
    mpll := .replicate 10 (.empty 0)
    dividers := .zero
    captured := false }

def key (p : C20Pll) : PllKey := ⟨.c20, p.bus.port.toUInt8⟩

def quotient (p : C20Pll) : Slot UInt16 := p.mpll[8]

def remainder (p : C20Pll) : Slot UInt16 := p.mpll[9]

def denominator (p : C20Pll) : Slot UInt16 := p.mpll[7]

def clock (p : C20Pll) (v : Version) : Float :=
  p.dividers.clock (p.quotient.value v) (p.remainder.value v) (p.denominator.value v)

def propose (p : C20Pll) (quot rem : UInt16) : C20Pll :=
  { p with mpll := (p.mpll.set 8 (p.quotient.propose quot)).set 9 (p.remainder.propose rem) }

variable {σ : Type} (h : Host σ)

/-- Reads the SRAM word at `addr` into a slot, which moves there first. -/
def captureWord (slot : C20Pll → Slot UInt16) (put : Slot UInt16 → C20Pll → C20Pll)
    (addr : UInt32) : Holding C20Pll σ Unit := do
  modify fun p => put { slot p with addr } p
  let word ← (← get).bus.readWord h .lane0 addr.toUInt16
  modify fun p => put ((slot p).capture word) p

def captureTx (contextB : Bool) (i : Fin 3) : Holding C20Pll σ Unit :=
  captureWord h (fun p => p.tx[i]) (fun s p => { p with tx := p.tx.set i s }) (txAddr contextB i)

def captureCmn (contextB : Bool) (i : Fin 4) : Holding C20Pll σ Unit :=
  captureWord h (fun p => p.cmn[i]) (fun s p => { p with cmn := p.cmn.set i s })
    (cmnAddr contextB i)

def captureMpll (i : Fin 10) (addr : UInt32) : Holding C20Pll σ Unit :=
  captureWord h (fun p => p.mpll[i]) (fun s p => { p with mpll := p.mpll.set i s }) addr

def capture : Holding C20Pll σ Unit := do
  modify fun p => { p with captured := false }
  let bus := (← get).bus
  let rate ← bus.readByte h 0 serdesRateAddr
  let contextB := rate &&& 1 != 0
  modify fun p => { p with contextB }
  (List.finRange 3).forM (captureTx h contextB)
  (List.finRange 4).forM (captureCmn h contextB)
  let tx0 := (← get).tx[0].found
  let block := if usesBlockB.isSet tx0.toUInt32 then Mpll.b else .a
  modify fun p => { p with block }
  (List.finRange 10).forM fun i => captureMpll h i (mpllAddr block contextB i)
  captureMpll h 8 block.fractionAddrs.1
  captureMpll h 9 block.fractionAddrs.2
  let p ← get
  let dividers := MpllDividers.decode block tx0 p.mpll[0].found p.mpll[1].found p.mpll[6].found
  set { p with dividers, captured := true }
  h.report (PllNotice.c20Captured bus.port contextB block dividers)

/-- Proposes the quotient and remainder for `target`. A remainder that does
not fit stops at the end of its range. -/
def takeTarget (target : Float) : Holding C20Pll σ Unit := do
  h.requireFrequency target "C20 target"
  let p ← get
  let port := p.bus.port
  if !p.dividers.fracEnabled then
    h.report (PllNotice.c20FractionOff port)
  let (quot, rest) := p.dividers.quotientFor target p.denominator.found
  if (65535.0 : Float) < Scalar.round rest then
    h.report (PllNotice.c20RemainderClamped port rest)
  let rem := Scalar.toField (Scalar.round rest) 0xFFFF
  h.report (PllNotice.c20Retuned port p.quotient.found quot p.remainder.found rem)
  set (p.propose quot.toUInt16 rem.toUInt16)

def retune (p : C20Pll) (target : Float) : Fallible σ C20Pll := (takeTarget h target).leaving p

def program (p : C20Pll) (v : Version) : Fallible σ Unit := do
  p.bus.writeWord h .lane0 p.quotient.addr.toUInt16 (p.quotient.value v)
  p.bus.writeWord h .lane0 p.remainder.addr.toUInt16 (p.remainder.value v)
  p.bus.writeWord h .lane0 p.block.updateAddr 1

def listing (p : C20Pll) : List Notice :=
  let port := p.bus.port
  let owner := s!"C20 port {port}:"
  let word (kind : String) (i : Nat) (s : Slot UInt16) : Notice :=
    let label := s!"{kind}[{i}]"
    PllNotice.c20Word port label s.addr s.found
  let slotLine (i : Nat) (s : Slot UInt16) : Notice :=
    let label := s!"mpll{p.block.name}[{i}]"
    PllNotice.slot owner label s.addr s.found.toUInt32 s.proposed.toUInt32
  (List.finRange 3).map (fun i : Fin 3 => word "tx" i p.tx[i]) ++
    (List.finRange 4).map (fun i : Fin 4 => word "cmn" i p.cmn[i]) ++
    (List.finRange 10).map (fun i : Fin 10 => slotLine i p.mpll[i])

end C20Pll

end Retune
