import Criterion.Error
import Criterion.Rules.Basic
import Criterion.Yaml.Datum

/-!
# Rule files

A rule set is written as a YAML mapping with the fields `name`, `description` and `rules`, and a rule
as one with the fields `name`, `when` and `description`. Other fields are passed over. A field that is
written twice is an error, and so is a rule without a name.

Where a text is wanted any scalar will do, and is taken as it is written: `when: 5` is the text `5`,
and `when: ~` the text `~`. An optional text is missing where null or nothing is written.
-/

namespace Criterion.Yaml

/-- The fields of a mapping, each with the name that its key gives. Nothing at all is a mapping
without fields. -/
def namedFields? (targets : Targets) (tree : Tree) : Option (List (String × Tree)) :=
  match targets.node? tree with
  | some (.mapping _ entries) =>
    entries.mapM fun (key, value) =>
      match targets.node? key with
      | some (.scalar _ text _) => some (text, value)
      | _ => none
  | some (.scalar _ "" true) => some []
  | _ => none

/-- The value of a field that may be written once; none if it is written more often. -/
def uniqueField? (name : String) (fields : List (String × Tree)) : Option (Option Tree) :=
  match fields.filter (·.1 == name) with
  | [] => some none
  | [(_, value)] => some (some value)
  | _ => none

/-- The text of a scalar, whatever it would be as a value. -/
def requiredText? (targets : Targets) (tree : Tree) : Option String :=
  match targets.node? tree with
  | some (.scalar _ text _) => some text
  | _ => none

/-- The text of a scalar, missing where null is written. -/
def optionalText? (targets : Targets) (tree : Tree) : Option (Option String) :=
  match targets.node? tree with
  | some (.scalar p text plain) =>
    if !plain then some (some text)
    else
      match p.tag with
      | some tag =>
        -- a tag other than that of null makes `~` a text
        if tag == typeTag "null" then (if isNullSpelling text then some none else none)
        else some (some text)
      | none => some (if text.isEmpty || isNullSpelling text then none else some text)
  | _ => none

/-- Reads a field, or takes a default where it is not written. -/
def readField {α : Type} (read : Tree → Option α) (default : Option α) :
    Option Tree → Option α
  | none => default
  | some tree => read tree

def rule? (targets : Targets) (tree : Tree) : Option Rule := do
  let fields ← namedFields? targets tree
  let name ← uniqueField? "name" fields
  let condition ← uniqueField? "when" fields
  let description ← uniqueField? "description" fields
  return {
    name := ← readField (requiredText? targets) none name
    condition := ← readField (requiredText? targets) (some "") condition
    description := ← readField (optionalText? targets) (some none) description }

/-- Reads a list of rules. Where nothing is written it is empty. -/
def rules? (targets : Targets) (tree : Tree) : Option (List Rule) :=
  match targets.node? tree with
  | some (.sequence _ items) => items.mapM (rule? targets)
  | some (.scalar _ "" true) => some []
  | _ => none

def ruleSet? (targets : Targets) (tree : Tree) : Option RuleSet := do
  let fields ← namedFields? targets tree
  let name ← uniqueField? "name" fields
  let description ← uniqueField? "description" fields
  let rules ← uniqueField? "rules" fields
  return {
    name := ← readField (optionalText? targets) (some none) name
    description := ← readField (optionalText? targets) (some none) description
    rules := ← readField (rules? targets) (some []) rules }

/-- The rule set that a document is; a text without a document is the empty set. -/
def documentRuleSet? : Option Tree → Option RuleSet
  | none => some {}
  | some tree => ruleSet? tree.targets tree

end Criterion.Yaml

namespace Criterion

def RuleSet.ofYaml (text : String) : Except Error RuleSet :=
  match (Yaml.document? text).bind Yaml.documentRuleSet? with
  | some set => .ok set
  | none => .error .document

end Criterion
