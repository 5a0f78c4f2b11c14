/-!
# Register slots

A register as it was found when the hardware was captured, beside the value
proposed for it.
-/

namespace Retune

/-- Which of the two values of a slot is meant. -/
inductive Version where
  | found
  | proposed
  deriving DecidableEq, Repr

/-- A register address with its two values. -/
structure Slot (α : Type) where
  addr : UInt32
  found : α
  proposed : α
  deriving DecidableEq, Repr

namespace Slot
variable {α : Type}

def empty [OfNat α 0] (addr : UInt32) : Slot α := ⟨addr, 0, 0⟩

/-- The value just read is both what was found and where proposals start. -/
def capture (s : Slot α) (v : α) : Slot α := { s with found := v, proposed := v }

def propose (s : Slot α) (v : α) : Slot α := { s with proposed := v }

def value (s : Slot α) : Version → α
  | .found => s.found
  | .proposed => s.proposed

@[simp] theorem value_capture (s : Slot α) (v : α) (c : Version) : (s.capture v).value c = v := by
  cases c <;> rfl

@[simp] theorem found_propose (s : Slot α) (v : α) : (s.propose v).found = s.found := rfl

@[simp] theorem addr_capture (s : Slot α) (v : α) : (s.capture v).addr = s.addr := rfl

@[simp] theorem addr_propose (s : Slot α) (v : α) : (s.propose v).addr = s.addr := rfl

end Slot

end Retune
