/-!
# What the bits of a double stand for

A finite double is a whole number times a power of two. Both decimal formats
start from that exact value and compute in `Nat`.
-/

namespace Retune.Decimal

/-- `finite s m e` stands for `m * 2 ^ e`, with a minus sign when `s` holds. -/
inductive Reading where
  | nan
  | infinite (negative : Bool)
  | finite (negative : Bool) (mantissa : Nat) (exponent : Int)
  deriving DecidableEq, Repr

namespace Reading

def hiddenBit : Nat := 0x10000000000000

def ofBits (bits : UInt64) : Reading :=
  let negative := bits >>> 63 != 0
  let exponent := ((bits >>> 52) &&& 0x7FF).toNat
  let fraction := (bits &&& 0xFFFFFFFFFFFFF).toNat
  if exponent = 2047 then
    if fraction = 0 then infinite negative else nan
  else if exponent = 0 then finite negative fraction (-1074)
  else finite negative (fraction + hiddenBit) (exponent - 1075)

end Reading

/-- `num / den` for a power of two times a whole number. -/
structure Quotient where
  num : Nat
  den : Nat

def Quotient.scaled (m : Nat) (e : Int) : Quotient :=
  ⟨m <<< e.toNat, 1 <<< (-e).toNat⟩

def signed (negative : Bool) (digits : String) : String :=
  if negative then "-" ++ digits else digits

def digits (n : Nat) : String := String.ofList (Nat.toDigits 10 n)

/-- `n * 10 ^ (-places)` in positional notation with `places` decimals. -/
def positional (n places : Nat) : String :=
  let ds := Nat.toDigits 10 n
  let ds := List.replicate (places + 1 - ds.length) '0' ++ ds
  let whole := ds.take (ds.length - places)
  if places = 0 then String.ofList whole
  else String.ofList (whole ++ '.' :: ds.drop (ds.length - places))

end Retune.Decimal
