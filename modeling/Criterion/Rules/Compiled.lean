import Criterion.Condition
import Criterion.Rules.Basic

/-!
# Compiled rules

Compiling a rule set parses the condition of every rule, and fails at the first that is malformed. A
compiled set is evaluated as a whole: each rule has an outcome of its own, in the order of
declaration.
-/

namespace Criterion

/-- A rule whose condition has been parsed. -/
structure CompiledRule where
  name : String
  condition : Condition
deriving Repr

/-- Whether one rule holds. -/
structure Outcome where
  name : String
  matched : Bool
deriving DecidableEq, Repr

/-- Parsed rules in the order of their declaration. -/
structure CompiledSet where
  name : Option String
  rules : List CompiledRule
deriving Repr

def Rule.compile (rule : Rule) : Except Error CompiledRule :=
  match Condition.parse rule.condition with
  | .ok condition => .ok ⟨rule.name, condition⟩
  | .error cause => .error (.invalidRule rule.name cause)

def RuleSet.compile (set : RuleSet) : Except Error CompiledSet := do
  let rules ← set.rules.mapM Rule.compile
  return ⟨set.name, rules⟩

namespace CompiledSet

/-- The first rule with this name. -/
def get (set : CompiledSet) (name : String) : Except Error CompiledRule :=
  match set.rules.find? (·.name == name) with
  | some rule => .ok rule
  | none => .error (.ruleNotFound name)

/-- The outcome of every rule in a context. -/
def evaluate (set : CompiledSet) (context : Datum) : List Outcome :=
  set.rules.map fun rule => ⟨rule.name, rule.condition.holds (some context)⟩

/-- The names of the rules that hold in a context. -/
def matching (set : CompiledSet) (context : Datum) : List String :=
  (set.rules.filter (·.condition.holds (some context))).map (·.name)

end CompiledSet

end Criterion
