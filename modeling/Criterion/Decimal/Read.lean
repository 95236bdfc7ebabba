import Criterion.Decimal.Basic

/-!
# Reading a decimal

A written decimal is an optional sign, digits with at most one point among them, and an optional
exponent after `e` or `E`. Underscores between digits are passed over.

The point is taken out before the sign is looked at, and every character behind it other than an
underscore counts as a decimal. So `.-5` is read as `-5` with two decimals, which is `-0.05`.
-/

namespace Criterion.Decimal

/-- An optional sign in front, and what follows it. -/
def splitSign : List Char → Bool × List Char
  | '-' :: cs => (true, cs)
  | '+' :: cs => (false, cs)
  | cs => (false, cs)

def signed (negative : Bool) (n : Nat) : Int := if negative then -(n : Int) else n

/-- Digits and underscores, the first of them a digit. -/
def magnitude? (cs : List Char) : Option Nat :=
  if cs.head?.any Char.isDigit && cs.all (fun c => c.isDigit || c == '_') then
    some (Nat.ofDigitChars 10 (cs.filter Char.isDigit) 0)
  else none

/-- An integer with an optional sign, in which underscores may stand behind the first digit. -/
def integer? (cs : List Char) : Option Int :=
  let (negative, digits) := splitSign cs
  (magnitude? digits).map (signed negative)

/-- The first number that is too large for a signed word of 128 bits. -/
def signedBound128 : Int := 170141183460469231731687303715884105728

/-- An exponent: an optional sign and digits alone, for a number of at most 128 bits. -/
def exponent? (cs : List Char) : Option Int :=
  let (negative, digits) := splitSign cs
  if digits ≠ [] && digits.all Char.isDigit then
    let e := signed negative (Nat.ofDigitChars 10 digits 0)
    if -signedBound128 ≤ e ∧ e < signedBound128 then some e else none
  else none

def isExponentMark (c : Char) : Bool := c == 'e' || c == 'E'

/-- The text in front of the exponent, and the exponent, which is zero where none is written. -/
def splitExponent? (cs : List Char) : Option (List Char × Int) :=
  match cs.dropWhile (fun c => !isExponentMark c) with
  | [] => some (cs, 0)
  | _ :: power => (exponent? power).map (cs.takeWhile (fun c => !isExponentMark c), ·)

/-- The text without its first point, and the number of decimals that stood behind it. -/
def splitPoint (cs : List Char) : List Char × Nat :=
  let decimals := (cs.dropWhile (· != '.')).drop 1
  (cs.takeWhile (· != '.') ++ decimals, decimals.countP (· != '_'))

/-- The decimal with this coefficient and scale, if the scale is a signed 64-bit number. -/
def ofScale? (coefficient scale : Int) : Option Decimal :=
  if h : -9223372036854775808 ≤ scale ∧ scale < 9223372036854775808 then
    some { coefficient, scale, le_scale := h.1, scale_lt := h.2 }
  else none

/-- Reads a decimal off all of the characters. -/
def ofChars? (cs : List Char) : Option Decimal := do
  let (base, power) ← splitExponent? cs
  let (digits, decimals) := splitPoint base
  -- the point is out, so that a sign behind it is in front now
  let coefficient ← integer? digits
  ofScale? coefficient (decimals - power)

def ofText? (text : String) : Option Decimal := ofChars? text.toList

end Criterion.Decimal
