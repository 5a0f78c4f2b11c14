/-!
# Hexadecimal text

Registers, addresses and status words are written in base sixteen, lower
case, after the mark `0x`.
-/

namespace Retune.Text

def hexDigits (n : Nat) : List Char := Nat.toDigits 16 n

def hex (n : Nat) : String := String.ofList ('0' :: 'x' :: hexDigits n)

/-- Filled with zeros up to `width` characters, the mark included: `0x001f`
at width six. A longer number is not cut. -/
def hexFill (width n : Nat) : String :=
  let digits := hexDigits n
  String.ofList ('0' :: 'x' :: (List.replicate (width - 2 - digits.length) '0' ++ digits))

end Retune.Text
