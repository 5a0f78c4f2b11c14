import Retune.Decimal.Reading

/-!
# The shortest decimal that reads back

A decimal reads back as a double when it lies in the interval of numbers that
round to it. Of the grids of multiples of a power of ten, the coarsest one
with a point in that interval is taken, and there the point nearest to the
double. Notation is always positional.
-/

namespace Retune.Decimal

/-- The numbers that round to a double, over the denominator `den`. The ends
belong to it when the mantissa is even. -/
structure Interval where
  low : Nat
  mid : Nat
  high : Nat
  den : Nat
  closed : Bool

namespace Interval

/-- Half a step to either neighbour. The step below a power of two is half as
long as the one above, unless there are no shorter steps. -/
def around (m : Nat) (e : Int) : Interval :=
  let unit := Quotient.scaled 1 (e - 2)
  let below := if m = Reading.hiddenBit ∧ -1074 < e then 1 else 2
  { low := (4 * m - below) * unit.num
    mid := 4 * m * unit.num
    high := (4 * m + 2) * unit.num
    den := unit.den
    closed := m % 2 = 0 }

def shrink (i : Interval) (k : Int) : Interval :=
  let up := Nat.pow 10 (-k).toNat
  { i with
    low := i.low * up
    mid := i.mid * up
    high := i.high * up
    den := i.den * Nat.pow 10 k.toNat }

def nearest? (i : Interval) : Option Nat :=
  let j := i.mid / i.den
  let down := j * i.den
  let up := (j + 1) * i.den
  let hasDown := if i.closed then i.low ≤ down else i.low < down
  let hasUp := if i.closed then up ≤ i.high else up < i.high
  if hasDown ∧ hasUp then
    if i.mid - down < up - i.mid then some j else some (j + 1)
  else if hasDown then some j
  else if hasUp then some (j + 1)
  else none

/-- The first hit on the grids of `10 ^ k`, `10 ^ (k - 1)` and so on, with its
exponent. -/
def coarsest? (i : Interval) : Nat → Int → Option (Nat × Int)
  | 0, _ => none
  | fuel + 1, k =>
    match (i.shrink k).nearest? with
    | some j => some (j, k)
    | none => i.coarsest? fuel (k - 1)

end Interval

/-- Grids to try: a double has at most 310 digits before the point and needs
no grid below `10 ^ (-345)`. -/
def gridCount : Nat := 700

def shortest (x : Float) : String :=
  match Reading.ofBits x.toBits with
  | .nan => "NaN"
  | .infinite s => signed s "inf"
  | .finite s m e =>
    if m = 0 then signed s "0" else
    let i := Interval.around m e
    match i.coarsest? gridCount (Nat.toDigits 10 (i.high / i.den)).length with
    | some (j, k) => signed s (positional (j * Nat.pow 10 k.toNat) (-k).toNat)
    | none => signed s (digits (i.mid / i.den))

end Retune.Decimal
