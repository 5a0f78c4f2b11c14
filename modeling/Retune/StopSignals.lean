/-!
# Stop signals

A stop signal is a flag that every copy of it shares. One of them belongs to
the whole process.
-/

namespace Retune

/-- Flags, and signals that name them by position. Flag 0 is that of the
process. -/
structure StopSignals where
  flags : List Bool
  signals : List Nat
  deriving DecidableEq, Repr

namespace StopSignals

def initial : StopSignals := ⟨[false, false, false], [1, 2, 0]⟩

def setFlag (s : StopSignals) (flag : Nat) (value : Bool) : StopSignals :=
  { s with flags := s.flags.set flag value }

def setSignal (s : StopSignals) (i : Nat) (value : Bool) : StopSignals :=
  match s.signals[i]? with
  | some flag => s.setFlag flag value
  | none => s

def request (s : StopSignals) (i : Nat) : StopSignals := s.setSignal i true

def reset (s : StopSignals) (i : Nat) : StopSignals := s.setSignal i false

/-- Appends a copy of signal `i`. -/
def clone (s : StopSignals) (i : Nat) : StopSignals :=
  match s.signals[i]? with
  | some flag => { s with signals := s.signals ++ [flag] }
  | none => s

def requestProcess (s : StopSignals) : StopSignals := s.setFlag 0 true

def resetProcess (s : StopSignals) : StopSignals := s.setFlag 0 false

def flagAt (s : StopSignals) (flag : Nat) : Bool := s.flags.getD flag false

def shown (s : StopSignals) : List Bool := s.signals.map s.flagAt

def processRequested (s : StopSignals) : Bool := s.flagAt 0

end StopSignals

end Retune
