import Retune.Bench.Hardware
import Retune.Notice

/-!
# Traces

What happened on the bench during one command: register accesses, bus events
and notices. Events are collected with the last one in front.
-/

namespace Retune

inductive Access where
  | read (addr value : UInt32)
  | write (addr value : UInt32)
  deriving DecidableEq, Repr

structure LogLine where
  level : Level
  text : String
  deriving DecidableEq, Repr

def Notice.line (n : Notice) : LogLine := ⟨n.level, n.text⟩

/-- The events of a command, the last ones in front. `writes` are those to
plain registers. -/
structure Trace where
  writes : List (UInt32 × UInt32)
  bus : List BusEvent
  accesses : List Access
  log : List LogLine

namespace Trace

def empty : Trace := ⟨[], [], [], []⟩

/-- Adds an access. A read just like the event before it says nothing new. -/
def addAccess (t : Trace) (a : Access) : Trace :=
  match a with
  | .read .. => if t.accesses.head? = some a then t else { t with accesses := a :: t.accesses }
  | .write .. => { t with accesses := a :: t.accesses }

def addWrite (t : Trace) (addr value : UInt32) : Trace :=
  { t with writes := (addr, value) :: t.writes }

def addBusEvent (t : Trace) (e : BusEvent) : Trace := { t with bus := e :: t.bus }

def addLine (t : Trace) (l : LogLine) : Trace := { t with log := l :: t.log }

def inOrder (t : Trace) : Trace :=
  ⟨t.writes.reverse, t.bus.reverse, t.accesses.reverse, t.log.reverse⟩

end Trace

end Retune
