import Criterion.Operator
import Criterion.Operand.Basic

/-!
# Trees of a condition

A condition is a binary tree. A leaf holds a literal; a branch holds an operator and two operands,
any of which may be missing, for conditions are accepted in which they are. The branch with nothing
in it is the empty condition.
-/

namespace Criterion

/-- A part of a condition. -/
inductive Node where
  | leaf (literal : Operand)
  | branch (op : Option Operator) (left right : Option Node)
deriving Repr

namespace Node

/-- The branch that holds nothing. -/
def empty : Node := branch none none none

instance : Inhabited Node := ⟨empty⟩

def isEmpty : Node → Bool
  | branch none none none => true
  | _ => false

/-- A property of all nodes follows by going from the children of a branch, where it has any, to the
branch. -/
@[induction_eliminator]
theorem induct {motive : Node → Prop} (leaf : ∀ literal, motive (leaf literal))
    (branch : ∀ op left right, (∀ n, left = some n → motive n) → (∀ n, right = some n → motive n) →
      motive (branch op left right)) : ∀ n, motive n
  | .leaf literal => leaf literal
  | .branch op none none => branch op none none nofun nofun
  | .branch op (some l) none =>
    branch op (some l) none (fun _ h => by cases h; exact induct leaf branch l) nofun
  | .branch op none (some r) =>
    branch op none (some r) nofun (fun _ h => by cases h; exact induct leaf branch r)
  | .branch op (some l) (some r) =>
    branch op (some l) (some r) (fun _ h => by cases h; exact induct leaf branch l)
      (fun _ h => by cases h; exact induct leaf branch r)

mutual

/-- Equality of trees, with decimals taken as the numbers they denote. -/
def same : Node → Node → Bool
  | leaf a, leaf b => a.same b
  | branch op left right, branch op' left' right' =>
    op == op' && sameChild left left' && sameChild right right'
  | _, _ => false

/-- Are both children missing, or both there and the same? -/
def sameChild : Option Node → Option Node → Bool
  | none, none => true
  | some n, some n' => same n n'
  | _, _ => false

end

mutual

/-- How many nodes a tree has. -/
def size : Node → Nat
  | leaf _ => 1
  | branch _ left right => 1 + childSize left + childSize right

def childSize : Option Node → Nat
  | none => 0
  | some n => size n

end

end Node

end Criterion
