import Retune.Bus.Word
import Retune.Failure
import Retune.Notice.Level

/-!
# Notices about registers, probing and the message bus
-/

namespace Retune

open Text

inductive ApertureNotice where
  | registerRead (addr value : UInt32)
  | registerWrite (addr value : UInt32)
  | waitExpired (addr mask value last : UInt32)
  | clockOff (output : String) (route value : UInt32)
  | dklPowered (phys : List UInt8)
  | comboProbed (phy : Nat) (misc comp : UInt32)
  | comboPowered (phys : List UInt8)

namespace ApertureNotice

def level : ApertureNotice → Level
  | registerRead .. | registerWrite .. | comboProbed .. => .trace
  | _ => .debug

def listText (xs : List UInt8) : String :=
  "[" ++ ", ".intercalate (xs.map toString) ++ "]"

def text : ApertureNotice → String
  | registerRead addr value => s!"Read: reg {hex addr.toNat} = {hex value.toNat}"
  | registerWrite addr value => s!"Write: reg {hex addr.toNat} <- {hex value.toNat}"
  | waitExpired addr mask value last =>
    s!"Wait: reg {hex addr.toNat} mask {hex mask.toNat} value {hex value.toNat} " ++
      s!"timed out at {hex last.toNat}"
  | clockOff output route value =>
    s!"{output}: clock off in {hex route.toNat} = {hex value.toNat}"
  | dklPowered phys => s!"DKL PHYs on: {listText phys}"
  | comboProbed phy misc comp =>
    s!"Combo PHY {phy}: misc {hex misc.toNat} comp_dw0 {hex comp.toNat}"
  | comboPowered phys => s!"Combo PHYs on: {listText phys}"

end ApertureNotice

inductive Direction where
  | read
  | write
  deriving DecidableEq, Repr

def Direction.name : Direction → String
  | read => "read"
  | write => "write"

/-- What a wait for an idle lane was waiting out. -/
inductive IdleReason where
  | previousTransaction
  | write
  deriving DecidableEq, Repr

def IdleReason.name : IdleReason → String
  | previousTransaction => "previous transaction"
  | write => "write"

inductive BusNotice where
  | resetStuck (port : UInt32) (lane : UInt8)
  | ackTimeout (port status : UInt32)
  | refused (port : UInt32) (expected : BusResponse) (status : UInt32)
  | wrongResponse (port : UInt32) (expected : BusResponse) (status : UInt32)
  | idleTimeout (port : UInt32) (reason : IdleReason)
  | writeRefused (port status : UInt32)
  | byteRead (port : UInt32) (lane : UInt8) (addr : UInt16) (value : UInt8)
  | byteWritten (port : UInt32) (lane : UInt8) (addr : UInt16) (value : UInt8)
  | attemptFailed (port : UInt32) (direction : Direction) (addr : UInt16) (attempt : Nat)
      (error : Failure)
  | gaveUp (port : UInt32) (direction : Direction) (addr : UInt16) (retries : UInt32)

namespace BusNotice

def level : BusNotice → Level
  | byteRead .. | byteWritten .. => .trace
  | attemptFailed .. => .debug
  | _ => .error

def text : BusNotice → String
  | resetStuck port lane => s!"Port {port} failed to bring lane {lane} to idle"
  | ackTimeout port status =>
    s!"Port {port} timeout waiting for message ACK. Status: {hex status.toNat}"
  | refused port expected status =>
    s!"Port {port} error during {expected.name} transaction. Status: {hex status.toNat}"
  | wrongResponse port expected status =>
    s!"Port {port} not a {expected.name} response. Status: {hex status.toNat}"
  | idleTimeout port reason =>
    s!"Port {port} timeout waiting for {reason.name} to complete. Resetting the bus."
  | writeRefused port status =>
    s!"Port {port} error during write command. Status: {hex status.toNat}"
  | byteRead port lane addr value =>
    s!"Port {port} lane {lane} read {hexFill 6 addr.toNat} = {hexFill 4 value.toNat}"
  | byteWritten port lane addr value =>
    s!"Port {port} lane {lane} write {hexFill 6 addr.toNat} <- {hexFill 4 value.toNat}"
  | attemptFailed port direction addr attempt error =>
    s!"Port {port} {direction.name} {hexFill 6 addr.toNat} attempt {attempt} failed: " ++
      error.message
  | gaveUp port direction addr retries =>
    s!"Port {port} {direction.name} {hexFill 6 addr.toNat} failed after {retries} retries"

end BusNotice

end Retune
