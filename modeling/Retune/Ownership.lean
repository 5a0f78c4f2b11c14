import Retune.Host

/-!
# Ownership of PLLs

Whoever drives a PLL claims it first and gives it back when done, so that no
two drive the same one. A registry has a slot for every key that was ever
granted and one bit for each slot, which says whether the key is owned now.
-/

namespace Retune

/-- The right to drive a PLL, with the place of its key in the registry. It is
given back by that place. -/
structure Guard where
  place : Nat
  key : PllKey
  deriving DecidableEq, Repr

/-- The keys in the order of their first claim, and the bits of those owned. -/
structure Registry where
  slots : List PllKey
  owned : UInt64
  deriving DecidableEq, Repr

namespace Registry

def empty : Registry := ⟨[], 0⟩

def capacity : Nat := 64

def bit (place : Nat) : UInt64 := 1 <<< place.toUInt64

def hasBit (r : Registry) (place : Nat) : Bool := r.owned &&& bit place != 0

def find? (r : Registry) (key : PllKey) : Option Nat := r.slots.findIdx? fun k => k == key

def isOwned (r : Registry) (key : PllKey) : Bool := (r.find? key).any r.hasBit

/-- The place of a key, which gets the next slot if it has none. -/
def locate (key : PllKey) : Fallible Registry Nat := do
  let r ← get
  match r.find? key with
  | some place => return place
  | none =>
    if capacity ≤ r.slots.length then throw (.invalidArgument "too many PLL slots")
    set { r with slots := r.slots ++ [key] }
    return r.slots.length

def claim (key : PllKey) : Fallible Registry Guard := do
  let place ← locate key
  let r ← get
  if r.hasBit place then throw (.alreadyOwned key)
  set { r with owned := r.owned ||| bit place }
  return ⟨place, key⟩

def release (r : Registry) (g : Guard) : Registry :=
  { r with owned := r.owned &&& ~~~bit g.place }

end Registry

/-! ## Claiming with notices -/

variable {σ : Type}

def ClaimNotice.ofFailure (key : PllKey) : Failure → ClaimNotice
  | .alreadyOwned k => .inUse k
  | _ => .full key

def claimPll (env : Environment σ) (key : PllKey) : Holding Registry σ Guard := do
  let (ended, r) := (Registry.claim key).run (← get)
  set r
  match ended with
  | .ok guard =>
    env.report (ClaimNotice.claimed key)
    return guard
  | .error e =>
    env.report (ClaimNotice.ofFailure key e)
    throw e

def releasePll (env : Environment σ) (g : Guard) : StateT Registry (StateM σ) Unit := do
  modify fun r => r.release g
  env.report (ClaimNotice.released g.key)

end Retune
