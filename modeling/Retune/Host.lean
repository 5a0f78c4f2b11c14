import Retune.Notice

/-!
# Hosts

A host is what programs act on: registers that can be read and written, stop
signals that can be polled, a listener for notices, and time that passes. Its
state is of any type and its answers are its own, so a statement about every
host covers every behaviour of the hardware.
-/

namespace Retune

inductive Signal where
  | session
  | process
  deriving DecidableEq, Repr

structure Environment (σ : Type) where
  stopRequested : Signal → StateM σ Bool
  report : Notice → StateM σ Unit
  pause : (ms : UInt64) → StateM σ Unit

/-- An environment with 32-bit registers. -/
structure Host (σ : Type) extends Environment σ where
  load : (addr : UInt32) → StateM σ UInt32
  store : (addr value : UInt32) → StateM σ Unit

/-- A program that acts on a host and may fail. What it did stays done. -/
abbrev Fallible (σ : Type) := ExceptT Failure (StateM σ)

/-- A program that also changes a value of type `δ`. The changes made before a
failure stay. -/
abbrev Holding (δ σ : Type) := ExceptT Failure (StateT δ (StateM σ))

namespace Holding
variable {δ ε σ α : Type}

def ofFallible (x : Fallible σ α) : Holding δ σ α :=
  ExceptT.mk (monadLift (ExceptT.run x))

instance (priority := low) : MonadLift (Fallible σ) (Holding δ σ) := ⟨ofFallible⟩

def outcome (x : Holding δ σ α) : Holding δ σ (Except Failure α) := ExceptT.lift x.run

/-- What a program leaves of a value if it succeeds. -/
def leaving (x : Holding δ σ Unit) (d : δ) : Fallible σ δ :=
  ExceptT.mk fun s =>
    let ((r, d), s) := x d s
    (r.map fun _ => d, s)

def onPart (part : δ → ε) (put : ε → δ → δ) (x : Holding ε σ α) : Holding δ σ α :=
  fun d s =>
    let ((r, e), s) := x (part d) s
    ((r, put e d), s)

end Holding

namespace Environment
variable {σ : Type} (env : Environment σ)

def reportingFailure {α : Type} (n : Failure → Notice) (x : Fallible σ α) : Fallible σ α :=
  tryCatch x fun e => do
    env.report (n e)
    throw e

def requireFrequency (x : Float) (what : String) : Fallible σ Unit :=
  if Scalar.isFrequency x then pure ()
  else do
    env.report (PllNotice.invalidFrequency what x)
    throw (.invalidArgument what)

def requireShift (shift : Float) : Fallible σ Unit :=
  if !Scalar.isNumber shift || decide (shift < 0.0) then do
    env.report (PllNotice.invalidShift shift)
    throw (.invalidArgument "shift")
  else pure ()

end Environment

end Retune
