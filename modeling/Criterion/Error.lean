import Criterion.Datum.Json

/-!
# What can go wrong

A condition has one way of being wrong. The other causes belong to rules and to the files that rules
and parameters are read from. What a document or the system has to say about a file that cannot be
read is not kept.
-/

namespace Criterion

/-- Why a condition is refused: an operand came where a part of it already had two. -/
inductive ConditionError where
  | malformedOperands
deriving DecidableEq, Repr

def ConditionError.message : ConditionError → String
  | malformedOperands => "expression is not in `A <op> B` form"

/-- What is wrong with a parameter file or an assignment. -/
inductive ConfigurationFault where
  | notMapping (value : Datum)
  | notAssignment (text : String)
  | missingName (text : String)
  | other (detail : String)
deriving Repr

def ConfigurationFault.message : ConfigurationFault → String
  | notMapping value => "parameter file must be a mapping, got " ++ value.toJson
  | notAssignment text => "expected key=value, got '" ++ text ++ "'"
  | missingName text => "missing parameter name in '" ++ text ++ "'"
  | other detail => detail

/-- Why conditions, rules or parameters cannot be had. -/
inductive Error where
  | condition (cause : ConditionError)
  | invalidRule (name : String) (cause : ConditionError)
  | ruleNotFound (name : String)
  | configuration (fault : ConfigurationFault)
  /-- The text is no document of the expected form. -/
  | document
  | unreadable
deriving Repr

/-- The wording of an error, where it is this library that words it. -/
def Error.message? : Error → Option String
  | condition cause => some ("Expression error: " ++ cause.message)
  | invalidRule name cause => some ("Rule '" ++ name ++ "' is invalid: " ++ cause.message)
  | ruleNotFound name => some ("Rule '" ++ name ++ "' not found")
  | configuration fault => some ("Configuration error: " ++ fault.message)
  | document | unreadable => none

end Criterion
