import Criterion.Decimal.Basic

/-!
# Finite binary64 numbers

A finite 64-bit floating-point number is kept as a sign and an exact product `mantissa · 2^exponent`
in the one form the format has for it: the mantissa has 53 bits, or the exponent is the smallest
there is. Zero has two signs.

`nearest?` rounds an exact decimal to this set, ties to the even mantissa. It works on a quotient of
natural numbers throughout. Powers of ten that are far out of range are never formed.
-/

namespace Criterion

/-- The smallest mantissa of 53 bits. -/
def leastMantissa : Nat := 4503599627370496

def leastExponent : Int := -1074

def greatestExponent : Int := 971

/-- The form in which a finite binary64 number is kept. -/
def IsCanonicalBinary (mantissa : Nat) (exponent : Int) : Prop :=
  mantissa < 2 * leastMantissa ∧ leastExponent ≤ exponent ∧ exponent ≤ greatestExponent ∧
    (leastMantissa ≤ mantissa ∨ exponent = leastExponent)

instance (m : Nat) (q : Int) : Decidable (IsCanonicalBinary m q) := by
  unfold IsCanonicalBinary; infer_instance

/-- The finite number `±mantissa · 2^exponent`. -/
structure Binary64 where
  negative : Bool
  mantissa : Nat
  exponent : Int
  canonical : IsCanonicalBinary mantissa exponent
deriving DecidableEq, Repr

namespace Binary64

def zero (negative : Bool) : Binary64 where
  negative := negative
  mantissa := 0
  exponent := leastExponent
  canonical := by decide

/-- The quotient rounded to the nearest natural number, an exact half to the even one. -/
def roundHalfEven (num den : Nat) : Nat :=
  let q := num / den
  let r := num % den
  if 2 * r > den || (2 * r == den && q % 2 == 1) then q + 1 else q

/-- The quotient of `num · 2^-exponent` by `den`, rounded. -/
def scaledMantissa (num den : Nat) (exponent : Int) : Nat :=
  roundHalfEven (num * twoTo (-exponent)) (den * twoTo exponent)

/-- The exponent at which the quotient has a mantissa of 53 bits, or the smallest exponent. -/
def fittingExponent (num den : Nat) : Int :=
  let guess : Int := (Nat.log2 num : Int) - Nat.log2 den - 52
  -- from the bit lengths the exponent is known but for one
  let fits := den * twoTo (guess + 52) ≤ num * twoTo (-(guess + 52))
  max (if fits then guess else guess - 1) leastExponent

/-- The number nearest to `num / den`, for positive `num` and `den`; none if it is out of range. -/
def ofQuotient? (negative : Bool) (num den : Nat) : Option Binary64 :=
  let e := fittingExponent num den
  let rounded := scaledMantissa num den e
  -- rounding up may carry into a bit that is too many
  let (mantissa, exponent) := if rounded = 2 * leastMantissa then (leastMantissa, e + 1) else (rounded, e)
  if h : IsCanonicalBinary mantissa exponent then
    some { negative, mantissa, exponent, canonical := h }
  else none

/-- The number nearest to `±digits · 10^power`; none if that is out of range. -/
def nearest? (negative : Bool) (digits : Nat) (power : Int) : Option Binary64 :=
  -- the number lies below `10^top`; far out of range its power of ten is not formed
  let top : Int := Decimal.digitCount digits + power
  if digits = 0 || top < -325 then some (zero negative)
  else if top > 310 then none
  else ofQuotient? negative (digits * tenTo power) (tenTo (-power))

end Binary64

end Criterion
