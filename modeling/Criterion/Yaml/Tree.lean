import Criterion.Yaml.Token

/-!
# YAML trees

The nodes of a document: scalars, sequences, mappings, and aliases that stand for a node elsewhere. An
anchor is a number here. The number of an anchor is the count of different names that were anchored
before it, so that a name that is anchored again shares its number with the next new name.
-/

namespace Criterion.Yaml

/-- What may stand in front of a node. -/
structure Properties where
  anchor : Option Nat := none
  tag : Option Octets := none
deriving DecidableEq, Repr

inductive Tree where
  /-- A scalar; `plain` tells whether it had no mark at its ends. -/
  | scalar (properties : Properties) (text : String) (plain : Bool)
  | sequence (properties : Properties) (items : List Tree)
  | mapping (properties : Properties) (entries : List (Tree × Tree))
  /-- A reference to the node with this anchor. -/
  | reference (target : Nat)
deriving Repr

namespace Tree

/-- The node that is not written. -/
def nothing : Tree := scalar {} "" true

instance : Inhabited Tree := ⟨nothing⟩

/-- The properties of a node; an alias has none. -/
def properties : Tree → Properties
  | scalar p _ _ => p
  | sequence p _ => p
  | mapping p _ => p
  | reference _ => {}

mutual

/-- The nodes that have an anchor, in the order in which they begin. -/
def anchored (tree : Tree) : List (Nat × Tree) :=
  let inside := match tree with
    | scalar _ _ _ => []
    | sequence _ items => anchoredItems items
    | mapping _ entries => anchoredEntries entries
    | reference _ => []
  match tree.properties.anchor with
  | none => inside
  | some n => (n, tree) :: inside

def anchoredItems : List Tree → List (Nat × Tree)
  | [] => []
  | item :: items => anchored item ++ anchoredItems items

def anchoredEntries : List (Tree × Tree) → List (Nat × Tree)
  | [] => []
  | (key, value) :: entries => anchored key ++ (anchored value ++ anchoredEntries entries)

end

mutual

/-- The extent of a node: one for a scalar or an alias, and two more than its content for a
collection. -/
def extent : Tree → Nat
  | scalar _ _ _ => 1
  | sequence _ items => 2 + extentItems items
  | mapping _ entries => 2 + extentEntries entries
  | reference _ => 1

def extentItems : List Tree → Nat
  | [] => 0
  | item :: items => extent item + extentItems items

def extentEntries : List (Tree × Tree) → Nat
  | [] => 0
  | (key, value) :: entries => extent key + extent value + extentEntries entries

end

end Tree

end Criterion.Yaml
