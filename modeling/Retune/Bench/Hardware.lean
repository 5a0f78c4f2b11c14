import Retune.Bench.Store
import Retune.Bus.Access

/-!
# Simulated hardware

A register file with message-bus PHYs behind some of its registers. What a PHY
does with a transaction is decided by a queue of faults, so every behaviour of
a PHY that never acknowledges what it did not execute can be played.
-/

namespace Retune

structure BusRegister where
  port : UInt32
  lane : UInt8
  isStatus : Bool
  deriving DecidableEq, Repr

namespace BusRegister

def ofOffset? (port offset : Nat) : Option BusRegister :=
  match offset with
  | 0 => some ⟨port.toUInt32, 0, false⟩
  | 4 => some ⟨port.toUInt32, 1, false⟩
  | 8 => some ⟨port.toUInt32, 0, true⟩
  | 12 => some ⟨port.toUInt32, 1, true⟩
  | _ => none

def ofAddr? (ports : Nat) (addr : UInt32) : Option BusRegister :=
  let n := addr.toNat
  let (port, offset) :=
    if n < 0x64040 then (ports, 0)
    else if n < 0x64340 then ((n - 0x64040) / 0x100, (n - 0x64040) % 0x100)
    else if n < 0x16F240 then (ports, 0)
    else (3 + (n - 0x16F240) / 0x200, (n - 0x16F240) % 0x200)
  if port < ports then ofOffset? port offset else none

end BusRegister

/-- What becomes of a transaction. `ok`, `swap` and `delay` execute it: `swap`
acknowledges with the wrong type, `delay` shows the result only after that
many samples. `hang` leaves it pending and `refuse` answers with a status
word, both without executing it. -/
inductive BusFault where
  | ok
  | hang
  | swap
  | delay (samples : Nat)
  | refuse (status : UInt32)
  deriving DecidableEq, Repr

inductive BusEvent where
  | reset (port : UInt32) (lane : UInt8)
  | transaction (port : UInt32) (lane : UInt8) (command : BusCommand) (addr : UInt16)
      (data : UInt8) (fault : BusFault)
  deriving DecidableEq, Repr

/-- A register that shows an old value for some more reads. -/
structure Lag where
  left : Nat
  value : UInt32
  deriving DecidableEq, Repr

structure SramWindow where
  writeAddr : UInt16
  writeHigh : UInt8
  readAddr : UInt16
  deriving DecidableEq, Repr

namespace SramWindow

def zero : SramWindow := ⟨0, 0, 0⟩

/-- The window after a byte has been written. -/
def write (s : SramWindow) (addr : UInt16) (value : UInt8) : SramWindow :=
  let withHigh (w : UInt16) := MessageBus.ofBytes value (MessageBus.lowByte w)
  let withLow (w : UInt16) := MessageBus.ofBytes (MessageBus.highByte w) value
  if addr = SramPort.writeAddrHigh then { s with writeAddr := withHigh s.writeAddr }
  else if addr = SramPort.writeAddrLow then { s with writeAddr := withLow s.writeAddr }
  else if addr = SramPort.readAddrHigh then { s with readAddr := withHigh s.readAddr }
  else if addr = SramPort.readAddrLow then { s with readAddr := withLow s.readAddr }
  else if addr = SramPort.writeDataHigh then { s with writeHigh := value }
  else s

end SramWindow

structure PhyByte where
  port : UInt32
  lane : UInt8
  addr : UInt16
  deriving DecidableEq, Repr

structure SramWord where
  port : UInt32
  addr : UInt16
  deriving DecidableEq, Repr

/-- The whole hardware. `queued` values are read before anything else;
`stuckResets` resets are yet to hang. -/
structure Hardware where
  ports : Nat
  registers : Store UInt32 UInt32
  queued : Store UInt32 (List UInt32)
  lags : Store UInt32 Lag
  stuckResets : Nat
  faults : List BusFault
  bytes : Store PhyByte UInt8
  words : Store SramWord UInt16
  windows : Store UInt32 SramWindow

namespace Hardware

def blank (ports : Nat) : Hardware :=
  ⟨ports, .empty, .empty, .empty, 0, [], .empty, .empty, .empty⟩

def register (hw : Hardware) (addr : UInt32) : UInt32 := hw.registers.get addr 0

def setRegister (hw : Hardware) (addr value : UInt32) : Hardware :=
  { hw with registers := hw.registers.set addr value }

def byte (hw : Hardware) (b : PhyByte) : UInt8 := hw.bytes.get b 0

def word (hw : Hardware) (w : SramWord) : UInt16 := hw.words.get w 0

def window (hw : Hardware) (port : UInt32) : SramWindow := hw.windows.get port .zero

/-! ## Reading -/

def read (hw : Hardware) (addr : UInt32) : UInt32 × Hardware :=
  match hw.queued.get addr [] with
  | value :: rest => (value, { hw with queued := hw.queued.set addr rest })
  | [] =>
    match hw.lags.get? addr with
    | some ⟨left + 1, value⟩ => (value, { hw with lags := hw.lags.set addr ⟨left, value⟩ })
    | _ => (hw.register addr, hw)

/-! ## Executing transactions -/

/-- What a byte read by the PHY is. Two registers show the word at the read
address. -/
def answerByte (hw : Hardware) (b : PhyByte) : UInt8 :=
  if b.addr = SramPort.readDataHigh then
    MessageBus.highByte (hw.word ⟨b.port, (hw.window b.port).readAddr⟩)
  else if b.addr = SramPort.readDataLow then
    MessageBus.lowByte (hw.word ⟨b.port, (hw.window b.port).readAddr⟩)
  else hw.byte b

/-- Writes a byte in the PHY. The low data byte stores a word of SRAM. -/
def storeByte (hw : Hardware) (b : PhyByte) (value : UInt8) : Hardware :=
  let w := hw.window b.port
  let words :=
    if b.addr = SramPort.writeDataLow then
      hw.words.set ⟨b.port, w.writeAddr⟩ (MessageBus.ofBytes w.writeHigh value)
    else hw.words
  { hw with
    bytes := hw.bytes.set b value
    words
    windows := hw.windows.set b.port (w.write b.addr value) }

def execute (hw : Hardware) (command : BusCommand) (b : PhyByte) (data : UInt8) (swap : Bool) :
    UInt32 × Hardware :=
  match command with
  | .read =>
    (if swap then BusWord.response .writeAck 0 else BusWord.response .readAck (hw.answerByte b), hw)
  | .writeCommitted =>
    (BusWord.response (if swap then .readAck else .writeAck) 0, hw.storeByte b data)
  | .writeUncommitted => (0, hw.storeByte b data)

def transact (hw : Hardware) (r : BusRegister) (control : UInt32) (command : BusCommand)
    (fault : BusFault) : Hardware :=
  let controlAddr := controlRegister r.port r.lane
  let statusAddr := statusRegister r.port r.lane
  let taken := control &&& ~~~BusWord.pending
  let b : PhyByte := ⟨r.port, r.lane, (BusWord.address.get control).toUInt16⟩
  let data := BusWord.byte control
  let finish (swap : Bool) : Hardware :=
    let (status, hw) := hw.execute command b data swap
    (hw.setRegister statusAddr status).setRegister controlAddr taken
  match fault with
  | .hang => hw.setRegister controlAddr control
  | .refuse status => (hw.setRegister statusAddr status).setRegister controlAddr taken
  | .ok => finish false
  | .swap => finish true
  | .delay n =>
    let hw := finish false
    { hw with lags := (hw.lags.set controlAddr ⟨n, control⟩).set statusAddr ⟨n, 0⟩ }

/-! ## Writing -/

/-- A reset ends the lags of its lane. A stuck one leaves its bit standing. -/
def resetLane (hw : Hardware) (r : BusRegister) (control : UInt32) : Hardware :=
  let controlAddr := controlRegister r.port r.lane
  let lags := (hw.lags.erase controlAddr).erase (statusRegister r.port r.lane)
  if hw.stuckResets = 0 then { hw with lags }.setRegister controlAddr 0
  else { hw with lags, stuckResets := hw.stuckResets - 1 }.setRegister controlAddr control

def writeControl (hw : Hardware) (r : BusRegister) (value : UInt32) :
    Option BusEvent × Hardware :=
  if value &&& BusWord.reset != 0 then
    (some (.reset r.port r.lane), hw.resetLane r value)
  else if value &&& BusWord.pending != 0 then
    match BusCommand.ofCode? (BusWord.command.get value) with
    | some command =>
      let fault := hw.faults.headD .ok
      let hw := { hw with faults := hw.faults.tail }
      (some (.transaction r.port r.lane command (BusWord.address.get value).toUInt16
        (BusWord.byte value) fault), hw.transact r value command fault)
    | none => (none, hw.setRegister (controlRegister r.port r.lane) value)
  else (none, hw.setRegister (controlRegister r.port r.lane) value)

/-- Writes a register. Bits written to a status register are cleared there. -/
def write (hw : Hardware) (addr value : UInt32) : Option BusEvent × Hardware :=
  match BusRegister.ofAddr? hw.ports addr with
  | none => (none, hw.setRegister addr value)
  | some r =>
    if r.isStatus then (none, hw.setRegister addr (hw.register addr &&& ~~~value))
    else hw.writeControl r value

end Hardware

end Retune
