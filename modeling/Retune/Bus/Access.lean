import Retune.Bus.Exchange

/-!
# Bytes and words over the message bus

Reads and writes with retries, the same on several lanes, and the words of
the SRAM behind a port, which are reached through byte registers.
-/

namespace Retune.MessageBus

variable {σ : Type} (bus : MessageBus) (h : Host σ)

/-- Makes up to `left` attempts, `made` having been made, and stops at the
first success. With none left the last error stands. -/
def attempts {α : Type} (attempt : Fallible σ α) (onFailure : Nat → Failure → Notice)
    (made : Nat) (last : Failure) : (left : Nat) → Fallible σ α
  | 0 => throw last
  | left + 1 =>
    tryCatch attempt fun e => do
      h.report (onFailure (made + 1) e)
      attempts attempt onFailure (made + 1) e left

def retrying {α : Type} (lane : UInt8) (direction : Direction) (addr : UInt16)
    (attempt : Fallible σ α) : Fallible σ α :=
  h.reportingFailure (fun _ => BusNotice.gaveUp bus.port direction addr bus.limits.retries) <|
    attempts h attempt (fun i e => BusNotice.attemptFailed bus.port direction addr i e) 0
      (bus.timeout lane) bus.limits.retries.toNat

def readByte (lane : UInt8) (addr : UInt16) : Fallible σ UInt8 :=
  bus.retrying h lane .read addr do
    let value ← bus.attemptRead h lane addr
    h.report (BusNotice.byteRead bus.port lane addr value)
    return value

def writeByte (lane : UInt8) (addr : UInt16) (value : UInt8) (committed : Bool) :
    Fallible σ Unit :=
  bus.retrying h lane .write addr do
    bus.attemptWrite h lane addr value committed
    h.report (BusNotice.byteWritten bus.port lane addr value)

/-- Reads from the highest selected lane. A read that fails for good yields
zero. -/
def readOrZero (lanes : LaneSet) (addr : UInt16) : StateM σ UInt8 := do
  match ← (bus.readByte h lanes.highest addr).run with
  | .ok value => return value
  | .error _ => return 0

def writeLanes (lanes : LaneSet) (addr : UInt16) (value : UInt8) (committed : Bool) :
    Fallible σ Unit :=
  lanes.toList.forM fun lane => bus.writeByte h lane addr value committed

/-- Clears and sets bits of a byte on one lane. A byte that does not change is
not written. -/
def modifyLane (addr : UInt16) (clear set : UInt8) (committed : Bool) (lane : UInt8) :
    Fallible σ Unit := do
  let old ← bus.readByte h lane addr
  let new := (old &&& ~~~clear) ||| set
  if new != old then
    bus.writeByte h lane addr new committed

def modifyLanes (lanes : LaneSet) (addr : UInt16) (clear set : UInt8) (committed : Bool) :
    Fallible σ Unit :=
  lanes.toList.forM (bus.modifyLane h addr clear set committed)

def highByte (w : UInt16) : UInt8 := (w >>> 8).toUInt8

def lowByte (w : UInt16) : UInt8 := w.toUInt8

def ofBytes (high low : UInt8) : UInt16 := high.toUInt16 <<< 8 ||| low.toUInt16

end Retune.MessageBus

namespace Retune.SramPort

/-! ## The byte registers that lead to SRAM -/

def writeAddrLow : UInt16 := 0xC02
def writeAddrHigh : UInt16 := 0xC03
def writeDataLow : UInt16 := 0xC04
def writeDataHigh : UInt16 := 0xC05
def readAddrLow : UInt16 := 0xC06
def readAddrHigh : UInt16 := 0xC07
def readDataLow : UInt16 := 0xC08
def readDataHigh : UInt16 := 0xC09

end Retune.SramPort

namespace Retune.MessageBus

variable {σ : Type} (bus : MessageBus) (h : Host σ)

def readWord (lanes : LaneSet) (addr : UInt16) : Fallible σ UInt16 := do
  bus.writeLanes h lanes SramPort.readAddrHigh (highByte addr) false
  bus.writeLanes h lanes SramPort.readAddrLow (lowByte addr) true
  let high ← bus.readByte h lanes.highest SramPort.readDataHigh
  let low ← bus.readByte h lanes.highest SramPort.readDataLow
  return ofBytes high low

/-- Writes a word of SRAM. Only the last byte, which stores the word, is
committed. -/
def writeWord (lanes : LaneSet) (addr value : UInt16) : Fallible σ Unit := do
  bus.writeLanes h lanes SramPort.writeAddrHigh (highByte addr) false
  bus.writeLanes h lanes SramPort.writeAddrLow (lowByte addr) false
  bus.writeLanes h lanes SramPort.writeDataHigh (highByte value) false
  bus.writeLanes h lanes SramPort.writeDataLow (lowByte value) true

end Retune.MessageBus
