import Criterion.Node
import Criterion.Operand.Comparison

/-!
# The value of a tree

A leaf has the value of its literal. A branch without a left child is null, and one without an
operator has the value of its left child. Otherwise the operator is applied to the values of the
children, where a missing right child counts as false.

`Node.value` says this by recursion. `Node.evaluate` works through a list of steps with a stack of
values, so that the depth of a tree costs no depth of calls.
-/

namespace Criterion

inductive Step where
  | visit (node : Node)
  /-- Join the values on top of the stack; the right one is there if there was a right child. -/
  | apply (op : Option Operator) (hasRight : Bool)
deriving Repr

namespace Step

/-- A bound on the steps that a step causes, itself counted. -/
def weight : Step → Nat
  | visit node => 2 * node.size
  | apply _ _ => 1

def weights : List Step → Nat
  | [] => 0
  | step :: steps => step.weight + weights steps

end Step

namespace Node

/-- The value of an operator, if there is one, between a left and a right value. -/
def combine (op : Option Operator) (left right : Operand) : Operand :=
  match op with
  | none => left
  | some op => .bool (op.apply left right)

/-- The value of a tree in a context, or without one. -/
def value (context : Option Datum) : Node → Operand
  | leaf literal => literal.resolve context
  -- without a left child the right one does not count
  | branch _ none _ => .null
  | branch op (some left) none => combine op (value context left) (.bool false)
  | branch op (some left) (some right) =>
    combine op (value context left) (value context right)

/-- The value on top of a stack, null if there is none, and the stack below it. -/
def popValue : List Operand → Operand × List Operand
  | [] => (.null, [])
  | value :: values => (value, values)

/-- Takes the steps from the first one on; what is left is the stack of values. -/
def runSteps (context : Option Datum) : List Step → List Operand → List Operand
  | [], values => values
  | .visit (.leaf literal) :: steps, values =>
    runSteps context steps (literal.resolve context :: values)
  | .visit (.branch _ none _) :: steps, values => runSteps context steps (.null :: values)
  | .visit (.branch op (some left) none) :: steps, values =>
    runSteps context (.visit left :: .apply op false :: steps) values
  | .visit (.branch op (some left) (some right)) :: steps, values =>
    runSteps context (.visit left :: .visit right :: .apply op true :: steps) values
  | .apply op hasRight :: steps, values =>
    -- the right child was visited last, so its value is on top
    let (right, values) := if hasRight then popValue values else (.bool false, values)
    let (left, values) := popValue values
    runSteps context steps (combine op left right :: values)
termination_by steps => Step.weights steps
decreasing_by
  all_goals simp only [Step.weights, Step.weight, size, childSize]
  all_goals omega

/-- The value of a tree in a context, or without one, found step by step. -/
def evaluate (context : Option Datum) (node : Node) : Operand :=
  (popValue (runSteps context [.visit node] [])).1

end Node

end Criterion
