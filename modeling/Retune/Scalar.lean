/-!
# The arithmetic of frequencies

Step plans and divider settings are written once over a `Scalar` and run in
double precision. Over the rationals the same formulas are exact, which is
where laws about them are stated.
-/

namespace Retune

/-- Numbers that clocks, shifts and ratios are computed in. -/
class Scalar (α : Type) extends Add α, Sub α, Mul α, Div α, Neg α, LT α, LE α, BEq α,
    OfScientific α where
  decLt : DecidableLT α
  decLe : DecidableLE α
  ofNat : Nat → α
  abs : α → α
  floor : α → α
  ceil : α → α
  /-- To the nearest whole number, a half away from zero. -/
  round : α → α
  isFinite : α → Bool
  /-- The whole part as a word; the ends of the range stand for what lies
  beyond them, and zero for what is not a number. -/
  toWord32 : α → UInt32
  toWord64 : α → UInt64

namespace Scalar

instance {α : Type} [Scalar α] : DecidableLT α := decLt

instance {α : Type} [Scalar α] : DecidableLE α := decLe

/-! ## Whole numbers near a double

A double without its sign is cut to a whole number by way of a word; every
other rounding follows from that. -/

/-- From here on every double is whole. -/
def wholeFrom : Float := 9007199254740992.0

def magnitudeDown (x : Float) : Float := x.toUInt64.toFloat

def magnitudeUp (x : Float) : Float :=
  let whole := magnitudeDown x
  if whole < x then whole + 1.0 else whole

def magnitudeNear (x : Float) : Float :=
  let whole := magnitudeDown x
  if 0.5 ≤ x - whole then whole + 1.0 else whole

/-- Applies `f` to the magnitude of what may have a fraction; the sign stays.
What is not a number, and what is zero, stays too. -/
def onMagnitude (f : Float → Float) (x : Float) : Float :=
  if x.abs < wholeFrom && x != 0.0 then
    if x < 0.0 then -(f x.abs) else f x.abs
  else x

def floorDouble (x : Float) : Float :=
  onMagnitude (if x < 0.0 then magnitudeUp else magnitudeDown) x

def ceilDouble (x : Float) : Float :=
  onMagnitude (if x < 0.0 then magnitudeDown else magnitudeUp) x

/-- The whole number nearest to a double, a half away from zero. -/
def roundDouble (x : Float) : Float := onMagnitude magnitudeNear x

instance : Scalar Float where
  decLt := inferInstance
  decLe := inferInstance
  ofNat := Float.ofNat
  abs := Float.abs
  floor := floorDouble
  ceil := ceilDouble
  round := roundDouble
  isFinite := Float.isFinite
  toWord32 := Float.toUInt32
  toWord64 := Float.toUInt64

/-- The whole part of `q`, kept between zero and `top`. -/
def wholeWithin (top : Nat) (q : Rat) : Nat := min q.floor.toNat top

instance : Scalar Rat where
  decLt := inferInstance
  decLe := inferInstance
  ofNat n := n
  abs := Rat.abs
  floor q := q.floor
  ceil q := q.ceil
  round q := if q < 0 then -((1 / 2 - q).floor : Rat) else ((q + 1 / 2).floor : Rat)
  isFinite _ := true
  toWord32 q := (wholeWithin 0xFFFFFFFF q).toUInt32
  toWord64 q := (wholeWithin 0xFFFFFFFFFFFFFFFF q).toUInt64

section
variable {α : Type} [Scalar α]

def isNumber (x : α) : Bool := x == x

def isFrequency (x : α) : Bool := isFinite x && decide ((0.0 : α) < x)

def toField (x : α) (top : UInt32) : UInt32 :=
  if !isNumber x || decide (x ≤ (0.0 : α)) then 0
  else if ofNat top.toNat ≤ x then top
  else toWord32 x

end

end Scalar

end Retune
