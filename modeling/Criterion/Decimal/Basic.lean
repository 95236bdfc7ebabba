import Criterion.Power

/-!
# Exact decimals

A decimal is an integer coefficient and a scale, and stands for `coefficient · 10^-scale`. The
scale is a signed 64-bit number, so `1e9000000000000000000` is a decimal of one digit. The order
is that of the numbers denoted: `1.50` and `1.5` are different decimals and compare equal.

Comparing must not write out `10^scale`. Two positive numbers are ordered first by the place of
their leading digit; only where these agree are they brought to one scale, and then the two scales
differ by no more than the digits that are there.
-/

namespace Criterion

/-- The number `coefficient · 10^-scale`, together with the way it is written. -/
structure Decimal where
  coefficient : Int
  scale : Int
  le_scale : -9223372036854775808 ≤ scale := by omega
  scale_lt : scale < 9223372036854775808 := by omega
deriving DecidableEq, Repr

namespace Decimal

def ofInt (n : Int) : Decimal where
  coefficient := n
  scale := 0

/-- How many decimal digits a number has; zero has one. -/
def digitCount (n : Nat) : Nat := (Nat.toDigits 10 n).length

/-- The first digit, and the others behind a point. -/
def withLeadingPoint : List Char → List Char
  | [] => []
  | [d] => [d]
  | d :: ds => d :: '.' :: ds

/-- The order of `m · 10^-s` and `n · 10^-t`. -/
def compareMagnitudes (m : Nat) (s : Int) (n : Nat) (t : Int) : Ordering :=
  -- zero has no leading digit to go by
  if m = 0 ∨ n = 0 then compare m n
  else
    -- the first number lies below `10^p` and not below `10^(p-1)`, the second one likewise
    let p : Int := digitCount m - s
    let q : Int := digitCount n - t
    if p = q then compare (m * tenTo (t - s)) (n * tenTo (s - t))
    else compare p q

/-- The order of the numbers denoted; the scale they are written with does not count. -/
def order (d e : Decimal) : Ordering :=
  match d.coefficient, e.coefficient with
  | .ofNat m, .ofNat n => compareMagnitudes m d.scale n e.scale
  | .ofNat _, .negSucc _ => .gt
  | .negSucc _, .ofNat _ => .lt
  -- below zero the greater magnitude is the smaller number
  | .negSucc m, .negSucc n => compareMagnitudes (n + 1) e.scale (m + 1) d.scale

def sameNumber (d e : Decimal) : Bool := d.order e == .eq

end Decimal

end Criterion
