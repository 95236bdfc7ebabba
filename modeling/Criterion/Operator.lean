/-!
# Operators

The eight operators of a condition: six comparisons and two logical ones. Each has one canonical
spelling; `=` and `<>` are accepted in conditions as second spellings of `==` and `!=`.
-/

namespace Criterion

/-- A comparison, or one of the two operators that join comparisons. -/
inductive Operator where
  | eq | ne | gt | ge | lt | le | and | or
deriving DecidableEq, Repr

namespace Operator

def all : List Operator := [eq, ne, gt, ge, lt, le, and, or]

def text : Operator → String
  | eq => "=="
  | ne => "!="
  | gt => ">"
  | ge => ">="
  | lt => "<"
  | le => "<="
  | and => "&&"
  | or => "||"

/-- The operator with this canonical spelling. The second spellings are not known here. -/
def ofText? (text : String) : Option Operator := all.find? (·.text == text)

/-- `&&` and `||` bind looser than every comparison. -/
def isLogical : Operator → Bool
  | and | or => true
  | _ => false

/-- Replaces a second spelling by the canonical one, and leaves any other text alone. -/
def canonicalSpelling (text : String) : String :=
  if text = "=" then "==" else if text = "<>" then "!=" else text

end Operator

end Criterion
