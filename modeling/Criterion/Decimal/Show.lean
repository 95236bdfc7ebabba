import Criterion.Decimal.Basic

/-!
# Writing a decimal

A decimal is written with all the digits of its coefficient, trailing zeros included. Three
layouts: plain; scientific for a number with more than five zeros between the point and its first
digit; and the bare coefficient with a positive power of ten where more than fifteen zeros would
have to be filled in. Zero is always `0`.
-/

namespace Criterion.Decimal

/-- The most zeros that plain layout puts between the point and the first digit. -/
def leadingZeroLimit : Int := 5

/-- The most zeros that plain layout fills in behind the digits. -/
def trailingZeroLimit : Int := 15

/-- The layout of the digits of a positive coefficient at this scale. -/
def layout (digits : List Char) (scale : Int) : List Char :=
  let count : Int := digits.length
  if scale > 0 ∧ scale - count > leadingZeroLimit then
    withLeadingPoint digits ++ 'E' :: '-' :: Nat.toDigits 10 (scale - count + 1).toNat
  else if scale < -trailingZeroLimit then
    digits ++ 'e' :: '+' :: Nat.toDigits 10 (-scale).toNat
  else if scale ≤ 0 then
    digits ++ List.replicate (-scale).toNat '0'
  else if count ≤ scale then
    '0' :: '.' :: (List.replicate (scale - count).toNat '0' ++ digits)
  else
    digits.take (count - scale).toNat ++ '.' :: digits.drop (count - scale).toNat

def toChars (d : Decimal) : List Char :=
  if d.coefficient = 0 then ['0']
  else
    let written := layout (Nat.toDigits 10 d.coefficient.natAbs) d.scale
    if d.coefficient < 0 then '-' :: written else written

def toText (d : Decimal) : String := String.ofList d.toChars

end Criterion.Decimal
