/-!
# Rules

A rule is a named condition as it is written. A rule set keeps its rules in the order in which they
are declared; names may be empty, and several rules may share one.
-/

namespace Criterion

/-- A named condition, not yet parsed. A rule whose condition is empty never matches. -/
structure Rule where
  name : String
  condition : String := ""
  description : Option String := none
deriving DecidableEq, Repr

/-- Rules in the order of their declaration. -/
structure RuleSet where
  name : Option String := none
  description : Option String := none
  rules : List Rule := []
deriving DecidableEq, Repr

end Criterion
