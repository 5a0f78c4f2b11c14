import Retune.Aperture
import Retune.Bus.LaneSet
import Retune.Bus.Word
import Retune.Tunables

/-!
# Transactions of the message bus

The host writes a control word with the pending bit, waits for the PHY to drop
it, and for acknowledged commands waits for the response. Whatever goes wrong
resets the lane, and then the attempt has failed.
-/

namespace Retune

structure MessageBus where
  port : UInt32
  limits : BusLimits
  deriving DecidableEq, Repr

namespace MessageBus

def ofPort (port : UInt32) : MessageBus := ⟨port, .default⟩

variable {σ : Type} (bus : MessageBus) (h : Host σ) (lane : UInt8)

def timeout : Failure := .busTimeout bus.port lane (controlRegister bus.port lane)

def acknowledge : StateM σ Unit :=
  discard (h.reviseBits (statusRegister bus.port lane) 0
    (BusWord.responseReady ||| BusWord.errorSet))

/-- Resets the lane. When it does not come back, that is reported and left to
the next attempt. -/
def resetLane : StateM σ Unit := do
  let control := controlRegister bus.port lane
  h.write control BusWord.reset
  match ← h.awaitClear control BusWord.reset bus.limits.timeoutUs with
  | .error _ => h.report (BusNotice.resetStuck bus.port lane)
  | .ok _ => bus.acknowledge h lane

def abandon {α : Type} (n : BusNotice) (e : Failure) : Fallible σ α := do
  h.report n
  bus.resetLane h lane
  throw e

def awaitIdle (reason : IdleReason) : Fallible σ Unit := do
  let control := controlRegister bus.port lane
  match ← h.awaitClear control BusWord.pending bus.limits.timeoutUs with
  | .error _ => bus.abandon h lane (.idleTimeout bus.port reason) (bus.timeout lane)
  | .ok _ => pure ()

/-- Waits for a response and answers its status word, if it is the expected
one. -/
def awaitResponse (expected : BusResponse) : Fallible σ UInt32 := do
  match ← h.awaitBits (statusRegister bus.port lane) BusWord.responseReady
      BusWord.responseReady bus.limits.timeoutUs with
  | .error status => bus.abandon h lane (.ackTimeout bus.port status) (bus.timeout lane)
  | .ok status =>
    let refusal := Failure.busProtocol bus.port lane status
    if status &&& BusWord.errorSet != 0 then
      bus.abandon h lane (.refused bus.port expected status) refusal
    else if BusResponse.ofCode? (BusWord.command.get status) = some expected then
      return status
    else bus.abandon h lane (.wrongResponse bus.port expected status) refusal

def attemptRead (addr : UInt16) : Fallible σ UInt8 := do
  bus.awaitIdle h lane .previousTransaction
  h.write (controlRegister bus.port lane) (BusWord.request .read addr 0)
  let status ← bus.awaitResponse h lane .readAck
  bus.acknowledge h lane
  return BusWord.byte status

/-- Takes the end of a write: a committed one is acknowledged, after an
uncommitted one the status is looked at once. -/
def awaitWritten (committed : Bool) : Fallible σ Unit := do
  if committed then
    discard (bus.awaitResponse h lane .writeAck)
  else
    let status ← h.read (statusRegister bus.port lane)
    if status &&& BusWord.errorSet != 0 then
      bus.abandon h lane (.writeRefused bus.port status) (.busProtocol bus.port lane status)

def attemptWrite (addr : UInt16) (value : UInt8) (committed : Bool) : Fallible σ Unit := do
  bus.awaitIdle h lane .previousTransaction
  let command := if committed then BusCommand.writeCommitted else .writeUncommitted
  h.write (controlRegister bus.port lane) (BusWord.request command addr value)
  bus.awaitIdle h lane .write
  bus.awaitWritten h lane committed
  bus.acknowledge h lane

end MessageBus

end Retune
