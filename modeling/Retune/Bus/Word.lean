import Retune.Field

/-!
# Words of the message bus

Each lane of a port has a control register, written by the host, and a status
register, written by the PHY. This module says where they are and what their
words mean.
-/

namespace Retune

/-- Ports from this one on are Type-C ports, with registers of their own. -/
def firstTypeCPort : UInt32 := 3

def controlRegister (port : UInt32) (lane : UInt8) : UInt32 :=
  let base :=
    if port < firstTypeCPort then 0x64040 + port * 0x100
    else 0x16F240 + (port - firstTypeCPort) * 0x200
  base + lane.toUInt32 * 4

def statusRegister (port : UInt32) (lane : UInt8) : UInt32 := controlRegister port lane + 8

inductive BusCommand where
  | writeUncommitted
  | writeCommitted
  | read
  deriving DecidableEq, Repr

namespace BusCommand

def code : BusCommand → UInt32
  | writeUncommitted => 1
  | writeCommitted => 2
  | read => 3

def ofCode? (c : UInt32) : Option BusCommand :=
  [writeUncommitted, writeCommitted, read].find? fun k => k.code == c

end BusCommand

inductive BusResponse where
  | readAck
  | writeAck
  deriving DecidableEq, Repr

namespace BusResponse

def code : BusResponse → UInt32
  | readAck => 4
  | writeAck => 5

def ofCode? (c : UInt32) : Option BusResponse :=
  [readAck, writeAck].find? fun k => k.code == c

def name : BusResponse → String
  | readAck => "ReadAck"
  | writeAck => "WriteAck"

end BusResponse

namespace BusWord

/-- Bit 31 of a control word: the PHY has yet to take the transaction. -/
def pending : UInt32 := 0x80000000

/-- Bit 15 of a control word: reset the bus. -/
def reset : UInt32 := 0x8000

/-- Bit 31 of a status word: a response is there. -/
def responseReady : UInt32 := 0x80000000

/-- Bit 15 of a status word: the PHY refused. -/
def errorSet : UInt32 := 0x8000

def command : Field := ⟨27, 4⟩

def data : Field := ⟨16, 8⟩

def address : Field := ⟨0, 12⟩

def byte (word : UInt32) : UInt8 := (data.get word).toUInt8

/-- The control word of a transaction. Of the address twelve bits are sent. -/
def request (c : BusCommand) (addr : UInt16) (value : UInt8) : UInt32 :=
  pending ||| (c.code <<< 27) ||| (value.toUInt32 <<< 16) ||| (addr.toUInt32 &&& address.top)

def response (r : BusResponse) (value : UInt8) : UInt32 :=
  responseReady ||| (r.code <<< 27) ||| (value.toUInt32 <<< 16)

end BusWord

end Retune
