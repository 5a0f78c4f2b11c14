import Retune.Host
import Retune.Proofs.Words

/-!
# PHYs on the message bus

What a PHY may do with the words written to its lanes. A transaction is left
pending, refused, or executed, then with the right response or one of the wrong
type; a reset completes or stands; a response stays until it is cleared.
-/

namespace Retune

structure BusLane where
  port : UInt32
  lane : UInt8
  deriving DecidableEq

def BusLane.control (l : BusLane) : UInt32 := controlRegister l.port l.lane

def BusLane.status (l : BusLane) : UInt32 := statusRegister l.port l.lane

structure Execution where
  lane : BusLane
  command : BusCommand
  addr : UInt16
  value : UInt8
  deriving DecidableEq

def BusCommand.reply (c : BusCommand) (swap : Bool) (value : UInt8) : UInt32 :=
  match c with
  | read => if swap then BusWord.response .writeAck 0 else BusWord.response .readAck value
  | writeCommitted => BusWord.response (if swap then .readAck else .writeAck) 0
  | writeUncommitted => 0

/-- What a transaction makes of the status word of its lane and of what has been
executed, the latest first. -/
inductive Transacted (l : BusLane) (c : BusCommand) (addr : UInt16) (w : UInt32)
    (done : List Execution) : UInt32 → List Execution → Prop where
  | left : Transacted l c addr w done w done
  | refused {w'} : w' &&& BusWord.errorSet ≠ 0 → Transacted l c addr w done w' done
  | executed (swap : Bool) (value : UInt8) :
      Transacted l c addr w done (c.reply swap value) (⟨l, c, addr, value⟩ :: done)

/-- What there is to know of a PHY in the states that are `sound`. -/
structure PhyView (σ : Type) where
  isLane : BusLane → Prop
  sound : σ → Prop
  status : σ → BusLane → UInt32
  resetting : σ → BusLane → Bool
  executed : σ → List Execution

namespace PhyView
variable {σ : Type} (v : PhyView σ)

structure Same (s s' : σ) : Prop where
  sound : v.sound s'
  status : v.status s' = v.status s
  resetting : v.resetting s' = v.resetting s
  executed : v.executed s' = v.executed s

structure SameBut (l : BusLane) (s s' : σ) : Prop where
  sound : v.sound s'
  status : ∀ l', v.isLane l' → l' ≠ l → v.status s' l' = v.status s l'
  resetting : ∀ l', v.isLane l' → l' ≠ l → v.resetting s' l' = v.resetting s l'

variable {v}

theorem Same.trans {s s' s'' : σ} (h₁ : v.Same s s') (h₂ : v.Same s' s'') : v.Same s s'' :=
  ⟨h₂.sound, h₂.status.trans h₁.status, h₂.resetting.trans h₁.resetting,
    h₂.executed.trans h₁.executed⟩

end PhyView

/-- A host whose lanes lead to a PHY. A response may show late, but what shows
is what is there, and a reset that stands can be seen. -/
structure BusPhy {σ : Type} (h : Host σ) extends PhyView σ where
  report : ∀ {s} n, sound s → toPhyView.Same s (h.report n s).2
  load : ∀ {s} addr, sound s → toPhyView.Same s (h.load addr s).2
  loadStatus : ∀ {s l}, sound s → isLane l →
    (h.load l.status s).1 &&& BusWord.responseReady ≠ 0 → (h.load l.status s).1 = status s l
  loadControl : ∀ {s l}, sound s → isLane l →
    (h.load l.control s).1 &&& BusWord.reset ≠ 0 → resetting s l = true
  storeReset : ∀ {s l}, sound s → isLane l →
    let s' := (h.store l.control BusWord.reset s).2
    toPhyView.SameBut l s s' ∧ status s' l = status s l ∧ executed s' = executed s
  storeStatus : ∀ {s l} w, sound s → isLane l →
    let s' := (h.store l.status w s).2
    toPhyView.SameBut l s s' ∧ status s' l = status s l &&& ~~~w ∧
      resetting s' l = resetting s l ∧ executed s' = executed s
  storeRequest : ∀ {s l} c addr value, sound s → isLane l →
    let s' := (h.store l.control (BusWord.request c addr value) s).2
    toPhyView.SameBut l s s' ∧
      Transacted l c (addr &&& 0xFFF) (status s l) (executed s) (status s' l) (executed s')

end Retune
