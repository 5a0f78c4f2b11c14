import Retune.Decimal.Reading

/-!
# A double with a fixed number of decimals

The exact value is rounded to the grid of the wanted decimals, a half to the
even neighbour. The sign of zero is written.
-/

namespace Retune.Decimal

/-- `num / den` to the nearest whole number, a half to the even one. -/
def roundHalfEven (num den : Nat) : Nat :=
  let q := num / den
  let twice := 2 * (num % den)
  if twice < den then q
  else if den < twice then q + 1
  else if q % 2 = 0 then q else q + 1

def fixed (places : Nat) (x : Float) : String :=
  match Reading.ofBits x.toBits with
  | .nan => "NaN"
  | .infinite s => signed s "inf"
  | .finite s m e =>
    let v := Quotient.scaled m e
    signed s (positional (roundHalfEven (v.num * Nat.pow 10 places) v.den) places)

end Retune.Decimal
