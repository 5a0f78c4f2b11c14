import Retune.Bench.Basic
import Retune.Pll.Open

/-!
# Commands of a bench session

What can be asked of a session, and what it answers. PLLs and controllers are
kept under names.
-/

namespace Retune

/-- An output of a platform by name, or one described in full. -/
inductive OutputChoice where
  | listed (platform : Platform) (name : String)
  | described (output : Output)

def OutputChoice.output? : OutputChoice → Option Output
  | listed platform name => platform.findOutput? name
  | described output => some output

structure LimitChoice where
  timeoutUs? : Option Nat
  retries? : Option UInt32

def LimitChoice.limits (c : LimitChoice) : BusLimits :=
  ⟨c.timeoutUs?.getD BusLimits.default.timeoutUs, c.retries?.getD BusLimits.default.retries⟩

inductive SetupCommand where
  | poke (values : List (UInt32 × UInt32))
  | peek (addrs : List UInt32)
  | queueReads (addr : UInt32) (values : List UInt32)
  | setPhy (port : UInt32) (lane : UInt8) (values : List (UInt16 × UInt8))
  | getPhy (port : UInt32) (lane : UInt8) (addrs : List UInt16)
  | setSram (port : UInt32) (values : List (UInt16 × UInt16))
  | getSram (port : UInt32) (addrs : List UInt16)
  | faults (queue : List BusFault)
  | stickResets (count : Nat)
  | stopOnWrite (hook : StopHook)
  | signal (signal : Signal) (value : Bool)

inductive AccessCommand where
  | readRegister (addr : UInt32)
  | writeRegister (addr value : UInt32)
  | updateRegister (addr clear set : UInt32)
  | awaitBits (addr mask value : UInt32) (timeoutUs : Nat)
  | awaitClear (addr mask : UInt32) (timeoutUs : Nat)
  | describeAperture
  | resolve (output : OutputChoice)
  | poweredDkl
  | poweredCombo
  | active (platform : Platform)
  | output (output : OutputChoice)
  | readByte (lane : UInt8) (addr : UInt16)
  | writeByte (lane : UInt8) (addr : UInt16) (data : UInt8) (committed : Bool)
  | readOrZero (lanes : LaneSet) (addr : UInt16)
  | writeLanes (lanes : LaneSet) (addr : UInt16) (data : UInt8) (committed : Bool)
  | modifyLanes (lanes : LaneSet) (addr : UInt16) (clear set : UInt8) (committed : Bool)
  | readWord (lanes : LaneSet) (addr : UInt16)
  | writeWord (lanes : LaneSet) (addr data : UInt16)

inductive PllSource where
  | outputOf (output : OutputChoice) (platform : Platform)
  | link (pipe : UInt8)
  | dkl (index : UInt8)
  | combo (index : UInt8) (regs : DpllPair)
  | c10 (port : UInt32) (limits : LimitChoice)
  | c20 (port : UInt32) (limits : LimitChoice)

inductive PllCommand where
  | capture
  | retune (target : Float)
  | program (v : Version)
  | listing
  | block
  | walk (m : Move)

inductive ControlCommand where
  | adjust (a : Adjustment)
  | moveTo (target shift : Float) (waitMs : UInt64)
  | walk (m : Move)
  | clock
  | cancel
  | wait
  | waitAtMost (ms : Nat)
  | requestStop
  | program (v : Version)
  | look

inductive TimerKind where
  | byHand
  | ownWorker
  deriving DecidableEq, Repr

inductive Command where
  | setup (c : SetupCommand)
  | access (c : AccessCommand)
  | useBus (port : UInt32) (limits : LimitChoice)
  | claimed (key : PllKey)
  | openPll (name : String) (source : PllSource)
  | pll (name : String) (c : PllCommand)
  | dropPll (name : String)
  | control (name pll : String) (signal : Signal) (timers : TimerKind)
  | cloneController (name source : String)
  | dropController (name : String)
  | controller (name : String) (c : ControlCommand)
  | fireAll
  | takeTimer (id : Nat)
  | runTaken (id : Nat)

inductive Answer where
  | nothing
  | flag (b : Bool)
  | flags (bs : List Bool)
  | number (n : Nat)
  | numbers (ns : List Nat)
  | clock (x : Float)
  | text (s : String)
  | texts (ss : List String)
  | output (o : Output)
  | lines (ls : List LogLine)
  | timedOut (value : UInt32)

structure PllView where
  captured : Bool
  found : Float
  proposed : Float

def Pll.view (p : Pll) : PllView := ⟨p.captured, p.clock .found, p.clock .proposed⟩

/-- A controller as it is seen from outside. The timers are all those of the
session that are fired by hand. -/
structure ControllerView where
  phase : Phase
  done : Bool
  found : Float
  target : Float
  armed? : Option (List (Nat × UInt64))
  pll : PllView

/-- What a command shows besides its answer. -/
inductive Shown where
  | nothing
  | pll (v : PllView)
  | controller (v : ControllerView)
  | controllers (vs : List (String × ControllerView))

structure Reply where
  answer : Except Failure Answer
  shown : Shown
  trace : Trace

end Retune
