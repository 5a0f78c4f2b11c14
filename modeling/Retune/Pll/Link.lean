import Retune.Aperture
import Retune.Slot

/-!
# Link ratios of DisplayPort pipes

The M and N registers of a pipe set its speed relative to the link. The M
value stands in for a clock: raising it speeds the pipe up.
-/

namespace Retune

/-- The M/N pair of a pipe. -/
structure LinkRatio where
  pipe : UInt8
  m : Slot UInt32
  n : Slot UInt32
  captured : Bool
  deriving DecidableEq, Repr

namespace LinkRatio

def pipeCount : UInt8 := 4

def mRegister (pipe : UInt8) : UInt32 := 0x60040 + 0x1000 * pipe.toUInt32

def ofPipe (pipe : UInt8) : LinkRatio :=
  ⟨pipe, .empty (mRegister pipe), .empty (mRegister pipe + 4), false⟩

def key (p : LinkRatio) : PllKey := ⟨.dpMn, p.pipe⟩

def mFor {α : Type} [Scalar α] (target : α) : UInt32 := Scalar.toWord32 (Scalar.round target)

def clock (p : LinkRatio) (v : Version) : Float := Scalar.ofNat (p.m.value v).toNat

variable {σ : Type} (h : Host σ)

def capture : Holding LinkRatio σ Unit := do
  let p ← get
  let m ← h.read p.m.addr
  let n ← h.read p.n.addr
  set { p with m := p.m.capture m, n := p.n.capture n, captured := true }

def takeTarget (target : Float) : Holding LinkRatio σ Unit := do
  h.requireFrequency target "link M"
  modify fun p => { p with m := p.m.propose (mFor target) }

def retune (p : LinkRatio) (target : Float) : Fallible σ LinkRatio :=
  (takeTarget h target).leaving p

def program (p : LinkRatio) (v : Version) : Fallible σ Unit := do
  h.write p.m.addr (p.m.value v)
  h.write p.n.addr (p.n.value v)

def listing (p : LinkRatio) : List Notice :=
  [PllNotice.linkSlot p.pipe "M" p.m.addr p.m.found p.m.proposed,
    PllNotice.linkSlot p.pipe "N" p.n.addr p.n.found p.n.proposed]

end LinkRatio

end Retune
