import Retune.Bus.Access
import Retune.Clock.C10
import Retune.Slot

/-!
# C10 PLLs

The PLL of a C10 PHY is a file of twenty bytes behind the message bus. Its
clock is a quotient of whole numbers. Only the quotient of the fraction is
retuned; the remainder keeps its captured value.
-/

namespace Retune

structure C10Pll where
  bus : MessageBus
  bytes : Vector (Slot UInt8) 20
  captured : Bool
  deriving DecidableEq, Repr

namespace C10Pll

def byteAddr (i : Fin 20) : UInt16 := 0xC00 + UInt16.ofNat i

/-- The byte with the switch of the fraction. -/
def fracByte : Fin 20 := 0

def multiplierLow : Fin 20 := 2

def multiplierHigh : Fin 20 := 3

def denLow : Fin 20 := 9

def denHigh : Fin 20 := 10

def quotLow : Fin 20 := 11

def quotHigh : Fin 20 := 12

def remLow : Fin 20 := 13

def remHigh : Fin 20 := 14

def dividerByte : Fin 20 := 15

/-- Opens the file for the message bus and loads a new configuration. -/
def controlAddr : UInt16 := 0xC70

/-- Holds the width of the transmitter in its two low bits. -/
def widthAddr : UInt16 := 0xD02

/-- Lets the message bus reach the file. -/
def busAccess : UInt8 := 4

def masterLane : UInt8 := 2

def updateConfig : UInt8 := 1

def widthMask : UInt8 := 3

def ofBus (bus : MessageBus) : C10Pll :=
  ⟨bus, Vector.ofFn fun i => .empty (byteAddr i).toUInt32, false⟩

def key (p : C10Pll) : PllKey := ⟨.c10, p.bus.port.toUInt8⟩

def snapshot (p : C10Pll) (v : Version) : Vector UInt8 20 := p.bytes.map fun s => s.value v

def ratio (p : C10Pll) (v : Version) : C10Ratio := .decode (p.snapshot v)

def clock (p : C10Pll) (v : Version) : Float := Scalar.ofNat (p.ratio v).clockKhz

def propose (p : C10Pll) (quot : UInt16) : C10Pll :=
  let low := p.bytes[quotLow].propose (MessageBus.lowByte quot)
  let high := p.bytes[quotHigh].propose (MessageBus.highByte quot)
  { p with bytes := (p.bytes.set quotLow low).set quotHigh high }

variable {σ : Type} (h : Host σ)

def captureByte (i : Fin 20) : Holding C10Pll σ Unit := do
  let p ← get
  let value ← p.bus.readByte h 0 p.bytes[i].addr.toUInt16
  set { p with bytes := p.bytes.set i (p.bytes[i].capture value) }
  h.report (PllNotice.c10Byte p.bus.port i value)

/-- Reads all bytes into the slots, up to the first that cannot be read. -/
def capture : Holding C10Pll σ Unit := do
  modify fun p => { p with captured := false }
  (List.finRange 20).forM (captureByte h)
  modify fun p => { p with captured := true }

def takeTarget (target : Float) : Holding C10Pll σ Unit := do
  h.requireFrequency target "C10 target"
  let p ← get
  let r := p.ratio .proposed
  let quot := r.quotientFor (r.feedbackFor target)
  set (p.propose quot.toUInt16)
  h.report (PllNotice.c10Retuned p.bus.port r.quot quot r.rem r.den r.multiplier)

def retune (p : C10Pll) (target : Float) : Fallible σ C10Pll := (takeTarget h target).leaving p

/-- Writes the quotient bytes between opening the file and loading it. -/
def program (p : C10Pll) (v : Version) : Fallible σ Unit := do
  p.bus.modifyLanes h .both controlAddr 0 busAccess true
  p.bus.modifyLanes h .both widthAddr widthMask 0 true
  p.bus.modifyLanes h .both controlAddr 0 updateConfig true
  p.bus.writeByte h 0 p.bytes[quotLow].addr.toUInt16 (p.bytes[quotLow].value v) true
  p.bus.writeByte h 0 p.bytes[quotHigh].addr.toUInt16 (p.bytes[quotHigh].value v) true
  p.bus.modifyLanes h .lane0 controlAddr 0 (masterLane ||| updateConfig) true

def listing (p : C10Pll) : List Notice :=
  let port := p.bus.port
  let owner := s!"C10 port {port}:"
  let lines := (List.finRange 20).map fun i =>
    let s := p.bytes[i]
    let label := s!"pll[{i.val}]"
    Notice.pll (.slot owner label s.addr s.found.toUInt32 s.proposed.toUInt32)
  let r := p.ratio .proposed
  let fracEnabled := C10Ratio.fracEnable.get p.bytes[fracByte].proposed.toUInt32
  let hdmiDiv := C10Ratio.hdmiDivField.get p.bytes[dividerByte].proposed.toUInt32
  let txClockDiv := C10Ratio.txClockDivField.get p.bytes[dividerByte].proposed.toUInt32
  lines ++
    [Notice.pll (.c10Fields port fracEnabled r.multiplier r.quot r.rem r.den txClockDiv hdmiDiv)]

end C10Pll

end Retune
