import Criterion.Datum.Binary64

/-!
# The shortest decimal of a binary64 number

Of all decimals that round to a number, the one with the fewest digits is written, and of several
with equally few the one nearest to the number. The decimals that round to `m · 2^q` fill the
interval between its midpoints with the two neighbours, ends included when `m` is even. For one
digit, then two, and so on, the two points next to the number on the grid of that many digits are
tried; seventeen digits always suffice.

The text has a point or an exponent, so that it is never taken for an integer: positional from
`10^-5` up to `10^16`, with an exponent outside.
-/

namespace Criterion.Binary64

/-- The number `digits · 10^power`. -/
structure Digits where
  digits : Nat
  power : Int
deriving DecidableEq, Repr

/-- The sign of `a · 10^p - b · 2^q`. -/
def compareDecimalBinary (a : Nat) (p : Int) (b : Nat) (q : Int) : Ordering :=
  compare (a * tenTo p * twoTo (-q)) (b * twoTo q * tenTo (-p))

/-- Does `a · 10^p` round to `m · 2^q`? The midpoint below is twice as near where `m` is the first
mantissa of its binade. -/
def roundsTo (a : Nat) (p : Int) (m : Nat) (q : Int) : Bool :=
  let below := if m = leastMantissa ∧ q ≠ leastExponent then compareDecimalBinary a p (4 * m - 1) (q - 2)
    else compareDecimalBinary a p (2 * m - 1) (q - 1)
  let above := compareDecimalBinary a p (2 * m + 1) (q - 1)
  -- a tie goes to the even mantissa, so both midpoints round to that one
  if m % 2 = 0 then below != .lt && above != .gt else below == .gt && above == .lt

/-- The decimal exponent of `m · 2^q`: where its leading digit stands. -/
def leadingPlace (m : Nat) (q : Int) : Int :=
  -- times `10^400` every number is above one
  let shifted := m * twoTo q * tenTo 400 / twoTo (-q)
  (Decimal.digitCount shifted : Int) - 401

/-- The whole number of steps of `10^p` in `m · 2^q`. -/
def stepsBelow (m : Nat) (q p : Int) : Nat :=
  (m * twoTo q * tenTo (-p)) / (twoTo (-q) * tenTo p)

/-- The point of the grid `10^p` that rounds to `m · 2^q`, the nearer one if both neighbours do;
an exact tie goes to the even one. -/
def onGrid? (m : Nat) (q p : Int) : Option Digits :=
  let low := stepsBelow m q p
  let lowHits := roundsTo low p m q
  let highHits := roundsTo (low + 1) p m q
  if lowHits && highHits then
    match compareDecimalBinary (2 * low + 1) p (2 * m) q with
    | .lt => some ⟨low + 1, p⟩
    | .eq => some ⟨if low % 2 = 0 then low else low + 1, p⟩
    | .gt => some ⟨low, p⟩
  else if lowHits then some ⟨low, p⟩
  else if highHits then some ⟨low + 1, p⟩
  else none

/-- The first grid with a hit, from `10^p` on to finer ones. With no tries left the number is cut
off at the grid that was reached. -/
def firstGrid (m : Nat) (q : Int) : Nat → Int → Digits
  | 0, p => ⟨stepsBelow m q p, p⟩
  | tries + 1, p => (onGrid? m q p).getD (firstGrid m q tries (p - 1))

/-- The shortest decimal that rounds to a number other than zero. -/
def shortest (x : Binary64) : Digits :=
  firstGrid x.mantissa x.exponent 17 (leadingPlace x.mantissa x.exponent)

/-- The smallest and the largest place of a leading digit that is written positionally. -/
def positionalPlaces : Int × Int := (-5, 15)

/-- Writes digits whose first one stands at the given place. -/
def layout (digits : List Char) (place : Int) : List Char :=
  let count := digits.length
  if place < positionalPlaces.1 then
    Decimal.withLeadingPoint digits ++ 'e' :: '-' :: Nat.toDigits 10 place.natAbs
  else if place > positionalPlaces.2 then
    Decimal.withLeadingPoint digits ++ 'e' :: '+' :: Nat.toDigits 10 place.natAbs
  else if place < 0 then
    '0' :: '.' :: (List.replicate (place.natAbs - 1) '0' ++ digits)
  else
    let whole := place.toNat + 1
    if count ≤ whole then digits ++ List.replicate (whole - count) '0' ++ ['.', '0']
    else digits.take whole ++ '.' :: digits.drop whole

/-- The digits without the zeros at their end. -/
def significantDigits (n : Nat) : List Char :=
  ((Nat.toDigits 10 n).reverse.dropWhile (· == '0')).reverse

def toChars (x : Binary64) : List Char :=
  let written :=
    if x.mantissa = 0 then ['0', '.', '0']
    else
      let s := x.shortest
      layout (significantDigits s.digits) (s.power + Decimal.digitCount s.digits - 1)
  if x.negative then '-' :: written else written

def toText (x : Binary64) : String := String.ofList x.toChars

end Criterion.Binary64
