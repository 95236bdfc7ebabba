import Criterion.Yaml.Grammar
import Criterion.Yaml.Scalar

/-!
# Data from YAML

The datum that a document denotes. Mappings become objects; a key is a scalar and names a field by its
text, whatever it would be as a value, and of two equal names the later one counts. An alias stands
for the node with its anchor, which may come later or lie around it. Two limits keep this finite:
collections lie in each other at most 128 deep, and the number of aliases that are followed is at most
a hundred times the extent of the document.
-/

namespace Criterion.Yaml

def depthLimit : Nat := 128

/-- The nodes that aliases stand for, the last to begin first. -/
abbrev Targets := List (Nat × Tree)

def Tree.targets (tree : Tree) : Targets := tree.anchored.reverse

/-- The node itself, or the node that an alias stands for, which is no alias again. -/
def Targets.node? (targets : Targets) : Tree → Option Tree
  | .reference target =>
    match targets.lookup target with
    | some (.reference _) | none => none
    | some tree => some tree
  | tree => some tree

/-- Follows an alias, which takes one of the aliases that may be followed. -/
def follow (targets : Targets) (tree : Tree) : StateT Nat Option Tree := fun left =>
  match tree, left with
  | .reference _, 0 => none
  | .reference target, left + 1 => (targets.node? (.reference target)).map (·, left)
  | tree, left => some (tree, left)

/-- The name that a key of a mapping gives. -/
def keyName (targets : Targets) (key : Tree) : StateT Nat Option String := do
  match ← follow targets key with
  | .scalar _ text _ => return text
  | _ => failure

/-- Goes on only where a collection has no tag of the document's own. -/
def refuseLocalTag (p : Properties) : StateT Nat Option Unit :=
  if p.tag.any isLocalTag then failure else pure ()

/-- The datum of a node, with collections at most so deep in it; the state is the number of aliases
that may still be followed. -/
def treeDatum (targets : Targets) : (depth : Nat) → Tree → StateT Nat Option Datum
  -- at the limit only scalars are left
  | 0, tree => do
    match ← follow targets tree with
    | .scalar p text plain => StateT.lift (scalarDatum? p.tag text plain)
    | _ => failure
  | depth + 1, tree => do
    match ← follow targets tree with
    | .scalar p text plain => StateT.lift (scalarDatum? p.tag text plain)
    | .sequence p items => do
      refuseLocalTag p
      return .list (← items.mapM (treeDatum targets depth))
    | .mapping p entries => do
      refuseLocalTag p
      let fields ← entries.mapM fun (key, value) => do
        let name ← keyName targets key
        return (name, ← treeDatum targets depth value)
      return .object (Fields.ofList fields)
    | .reference _ => failure

/-- The datum that a document denotes; a text without a document is null. -/
def documentDatum? : Option Tree → Option Datum
  | none => some .null
  | some tree => ((treeDatum tree.targets depthLimit tree).run (100 * tree.extent)).map (·.1)

end Criterion.Yaml

namespace Criterion

def Datum.ofYaml? (text : String) : Option Datum :=
  (Yaml.document? text).bind Yaml.documentDatum?

end Criterion
