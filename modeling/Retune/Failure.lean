import Retune.Family
import Retune.Text.Hex

/-!
# What can go wrong

Each error is a cause with its particulars; `message` words it.
-/

namespace Retune

open Text

inductive Failure where
  | invalidArgument (what : String)
  | busTimeout (port : UInt32) (lane : UInt8) (register : UInt32)
  | busProtocol (port : UInt32) (lane : UInt8) (status : UInt32)
  | alreadyOwned (key : PllKey)
  | allOnes (addr : UInt32)
  | noPll
  deriving DecidableEq, Repr

namespace Failure

def message : Failure → String
  | invalidArgument what => "Invalid argument: " ++ what
  | busTimeout port lane register =>
    s!"Message bus timeout on port {port} lane {lane} (reg {hex register.toNat})"
  | busProtocol port lane status =>
    s!"Message bus protocol error on port {port} lane {lane}, status {hex status.toNat}"
  | alreadyOwned key => s!"{key.family.name} PLL {key.index} is already claimed"
  | allOnes addr => s!"Register {hex addr.toNat} reads back all ones"
  | noPll => "Not initialized"

/-- Errors of the message bus are retried there; all others are final. -/
def isBusFailure : Failure → Bool
  | busTimeout .. | busProtocol .. => true
  | _ => false

end Failure

end Retune
