import Criterion.Datum.Basic
import Criterion.Decimal.Read
import Criterion.Yaml.Tree

/-!
# What scalars say

A plain scalar is null, a truth value, an integer, a float or a text, whichever its spelling fits
first. Any other scalar is a text. Tags of the YAML types other than texts decide instead of the
spelling.

An integer must fit 64 bits. One that fits 128 bits only is an error, and a longer one is read as a
float. A number of decimal digits with a zero too many in front is a text.
-/

namespace Criterion.Yaml

def isNullSpelling (text : String) : Bool :=
  text == "null" || text == "Null" || text == "NULL" || text == "~"

def boolOf? (text : String) : Option Bool :=
  if text == "true" || text == "True" || text == "TRUE" then some true
  else if text == "false" || text == "False" || text == "FALSE" then some false
  else none

/-- The text behind a mark, if it begins with the mark. -/
def behind? (mark : List Char) (cs : List Char) : Option (List Char) :=
  if mark.isPrefixOf cs then some (cs.drop mark.length) else none

def isSigned (cs : List Char) : Bool := cs.head?.any fun c => c == '+' || c == '-'

def unsignedPart (cs : List Char) : List Char := if isSigned cs then cs.drop 1 else cs

/-- The number that digits of a base denote; there must be at least one. -/
def digitsValue? (base : Nat) (cs : List Char) : Option Nat :=
  if cs.isEmpty then none
  else cs.foldlM (fun value c =>
    (hexValue? c).bind fun d => if d < base then some (base * value + d) else none) 0

/-- Digits that do not make a number, since a zero too many stands in front. -/
def hasExtraZero (cs : List Char) : Bool :=
  match unsignedPart cs with
  | '0' :: d :: ds => (d :: ds).all Char.isDigit
  | _ => false

/-- The number that follows the mark of a base other than ten. -/
def markedValue? (cs : List Char) : Option Nat :=
  match cs with
  | '0' :: 'x' :: ds => digitsValue? 16 ds
  | '0' :: 'o' :: ds => digitsValue? 8 ds
  | '0' :: 'b' :: ds => digitsValue? 2 ds
  | _ => none

/-- The integer that a scalar denotes, of whatever size. -/
def integerOf? (cs : List Char) : Option Int :=
  let (negative, magnitude) := Decimal.splitSign cs
  let value := match markedValue? magnitude with
    | some n => some n
    | none => if hasExtraZero cs then none else digitsValue? 10 magnitude
  value.map (Decimal.signed negative)

/-- How an integer is read. -/
inductive IntegerReading where
  | fits (value : Int)
  | tooLong
  | notInteger
deriving DecidableEq, Repr

/-- Reads an integer: one of 64 bits is that integer, and one of 128 bits is too long. An integer is
unsigned, or has a minus sign and is signed. -/
def readInteger (cs : List Char) : IntegerReading :=
  match integerOf? cs with
  | none => .notInteger
  | some n =>
    if -9223372036854775808 ≤ n ∧ n < 18446744073709551616 then .fits n
    else if -Decimal.signedBound128 ≤ n ∧ n < 2 * Decimal.signedBound128 then .tooLong
    else .notInteger

/-- Splits a text in front of the first character without a property. -/
def splitWhile (p : Char → Bool) (cs : List Char) : List Char × List Char :=
  (cs.takeWhile p, cs.dropWhile p)

/-- The exponent of a float, from its mark on: zero where the text has ended. -/
def floatExponent? : List Char → Option Int
  | [] => some 0
  | c :: rest =>
    if Decimal.isExponentMark c then
      let (negative, digits) := Decimal.splitSign rest
      if digits.isEmpty || !digits.all Char.isDigit then none
      else some (Decimal.signed negative (Nat.ofDigitChars 10 digits 0))
    else none

/-- The finite float that a text denotes: digits with or without a point, and perhaps an exponent. -/
def finiteFloat? (cs : List Char) : Option Binary64 :=
  let (negative, unsigned) := Decimal.splitSign cs
  let (whole, rest) := splitWhile Char.isDigit unsigned
  let (decimals, rest) := match rest with
    | '.' :: rest => splitWhile Char.isDigit rest
    | rest => ([], rest)
  if whole.isEmpty && decimals.isEmpty then none
  else
    match floatExponent? rest with
    | none => none
    | some e =>
      Binary64.nearest? negative (Nat.ofDigitChars 10 (whole ++ decimals) 0) (e - decimals.length)

def isSpecialFloat (text : String) : Bool :=
  [".inf", ".Inf", ".INF", "+.inf", "+.Inf", "+.INF", "-.inf", "-.Inf", "-.INF", ".nan", ".NaN",
    ".NAN"].contains text

/-- The datum that a float is read as; data has null for one that is not finite. -/
def floatOf? (text : String) : Option Datum :=
  if isSpecialFloat text then some .null
  else
    let cs := text.toList
    let unplused := (behind? ['+'] cs).getD cs
    if cs.head? == some '+' && isSigned unplused then none
    else (finiteFloat? unplused).map fun x => .number (.float x)

/-- The datum that the spelling of a plain scalar decides; none for an integer that is too long. -/
def plainDatum? (text : String) : Option Datum :=
  if text.isEmpty || isNullSpelling text then some .null
  else
    match boolOf? text with
    | some b => some (.bool b)
    | none =>
      match readInteger text.toList with
      | .fits n => some (.number (.integer n))
      | .tooLong => none
      | .notInteger =>
        -- no integer, and yet not to be read as a float
        if hasExtraZero text.toList then some (.text text)
        else some ((floatOf? text).getD (.text text))

/-- The full tag of a YAML type. -/
def typeTag (name : String) : Octets := octets ("tag:yaml.org,2002:" ++ name)

/-- A tag of the document's own, which data cannot express. It begins with an exclamation mark, which may
be all of it, and is a text in UTF-8. -/
def isLocalTag : Octets → Bool
  | [] => false
  | first :: rest => first == '!'.toNat.toUInt8 && (String.fromUTF8? ⟨rest.toArray⟩).isSome

/-- The datum that a scalar with a tag is; none where the text does not fit the type. -/
def taggedDatum? (tag : Octets) (text : String) (plain : Bool) : Option Datum :=
  if isLocalTag tag then none
  else if tag == typeTag "bool" then (boolOf? text).map .bool
  else if tag == typeTag "int" then
    match readInteger text.toList with
    | .fits n => some (.number (.integer n))
    | _ => none
  else if tag == typeTag "float" then floatOf? text
  else if tag == typeTag "null" then if isNullSpelling text then some .null else none
  else if tag.head? == some '!'.toNat.toUInt8 && plain then plainDatum? text
  else some (.text text)

def scalarDatum? (tag : Option Octets) (text : String) (plain : Bool) : Option Datum :=
  match tag with
  | some tag => taggedDatum? tag text plain
  | none => if plain then plainDatum? text else some (.text text)

end Criterion.Yaml
