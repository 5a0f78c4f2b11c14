import Retune.Adjustment.Controller

/-!
# Operations

Everything that can happen to a controller, one operation after the other:
what it is asked to do, timers that go off, and whatever changes the world
without it.
-/

namespace Retune

/-- One operation. A timer may go off late, when its adjustment is long over, and
a wait without a limit is one that is long enough. -/
inductive Operation (σ : Type) where
  | adjust (a : Adjustment)
  | moveTo (target shift : Float) (waitMs : UInt64)
  | walk (m : Move)
  | clock
  | cancel
  | expire (generation : Nat)
  | awaitEnd (ms : Nat)
  | outside (f : σ → σ)

namespace Operation
variable {δ σ : Type}

def within {ρ : Type} (lift : (σ → σ) → ρ → ρ) : Operation σ → Operation ρ
  | adjust a => .adjust a
  | moveTo target shift waitMs => .moveTo target shift waitMs
  | walk m => .walk m
  | clock => .clock
  | cancel => .cancel
  | expire generation => .expire generation
  | awaitEnd ms => .awaitEnd ms
  | outside f => .outside (lift f)

variable (st : Station σ) (dev : Adjustable δ σ)

def perform : Operation σ → StateT (Controller δ) (StateM σ) Unit
  | adjust a => discard (Controller.adjust st dev a).run
  | moveTo target shift waitMs => discard (Controller.moveTo st dev target shift waitMs).run
  | walk m => discard (Controller.walk st dev m).run
  | clock => discard (Controller.clock dev).run
  | cancel => discard (Controller.cancel st dev)
  | expire generation => Controller.expire st dev generation
  | awaitEnd ms => discard (Controller.awaitEnd st dev ms)
  | outside f => (modify f : StateM σ Unit)

def leave : List (Operation σ) → Controller δ → σ → Controller δ × σ
  | [], c, s => (c, s)
  | op :: ops, c, s =>
    let ((_, c), s) := op.perform st dev c s
    leave ops c s

end Operation

end Retune
