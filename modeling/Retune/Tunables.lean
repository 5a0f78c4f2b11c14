/-!
# Tunables

How an adjustment treats the hardware, how fast it moves, and how long the
message bus waits.
-/

namespace Retune

/-- Bit 0 commits the computed dividers to the PLL, bit 1 arms the timer that
takes them back. Other bits are kept and mean nothing. -/
structure AdjustmentFlags where
  bits : UInt8
  deriving DecidableEq, Repr

namespace AdjustmentFlags

def commit (f : AdjustmentFlags) : Bool := f.bits &&& 1 != 0

def autoReset (f : AdjustmentFlags) : Bool := f.bits &&& 2 != 0

def withoutCommit (f : AdjustmentFlags) : AdjustmentFlags := ⟨f.bits &&& ~~~1⟩

end AdjustmentFlags

/-- The tunables of one adjustment. Shifts are in percent; `fastShift` takes
the place of `shift` from a drift of `stepThresholdUs` on, unless it is zero. -/
structure Tunables where
  shift : Float
  fastShift : Float
  stepThresholdUs : UInt64
  waitBetweenStepsMs : UInt64
  flags : AdjustmentFlags

namespace Tunables

def default : Tunables := ⟨0.1, 0.0, 1000, 50, ⟨3⟩⟩

def withoutCommit (t : Tunables) : Tunables := { t with flags := t.flags.withoutCommit }

end Tunables

/-- How long each wait on the message bus may take, and how often a byte is
tried. -/
structure BusLimits where
  timeoutUs : Nat
  retries : UInt32
  deriving DecidableEq, Repr

def BusLimits.default : BusLimits := ⟨1000, 3⟩

end Retune
