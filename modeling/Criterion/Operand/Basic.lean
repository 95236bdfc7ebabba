import Criterion.Decimal.Show
import Criterion.Datum.Json
import Criterion.Decimal.Read
import Criterion.Text.Blank

/-!
# Operands

An operand is what stands at either side of an operator: a literal of a condition, and the value
that a part of a condition has. The two are one type, since a literal that is no reference to a
parameter is its own value, and a reference that nothing resolves stays what it is.

Equality of operands as Lean has it tells `1.50` from `1.5`. `Operand.same` does not: it is
equality up to the number that a decimal denotes.
-/

namespace Criterion

inductive Operand where
  | null
  | decimal (value : Decimal)
  | text (value : String)
  /-- A reference `%name` to a parameter. -/
  | parameter (name : String)
  /-- The mark that equals null, itself, and every text without visible characters. -/
  | blank
  | bool (value : Bool)
deriving DecidableEq, Repr

namespace Operand

def blankSpelling : String := "'$\x7bblank\x7d'"

/-- Null, the blank mark, and texts that are empty or all blank. -/
def isBlank : Operand → Bool
  | null | blank => true
  | text s => isBlankText s
  | _ => false

def toBool? : Operand → Option Bool
  | bool b => some b
  | _ => none

/-- The text that stands for an operand in an ordering by text. -/
def toText : Operand → String
  | null => "null"
  | decimal d => d.toText
  | text s => s
  | parameter name => "%" ++ name
  | blank => blankSpelling
  | bool b => if b then "true" else "false"

/-- The decimal that an operand is, or that its text can be read as. -/
def toDecimal? : Operand → Option Decimal
  | decimal d => some d
  | other => Decimal.ofText? other.toText

def parameterName? : Operand → Option String
  | parameter name => some name
  | _ => none

/-- Equality, with decimals taken as the numbers they denote. -/
def same : Operand → Operand → Bool
  | decimal d, decimal e => d.sameNumber e
  | a, b => a == b

/-- The operand that a parameter's value becomes: a number is a decimal, and whatever is not null,
a number or a text turns into its JSON text. -/
def ofDatum : Datum → Operand
  | .null => null
  | .number n =>
    match Decimal.ofText? n.toText with
    | some d => decimal d
    | none => text n.toText
  | .text s => text s
  | other => text other.toJson

/-- The value of a literal. A reference takes the value that the context gives to its name, or null
if it gives none. Without a context it stays a reference. -/
def resolve (context : Option Datum) : Operand → Operand
  | parameter name =>
    match context with
    | some values => ((values.lookup name).map ofDatum).getD null
    | none => parameter name
  | literal => literal

end Operand

end Criterion
