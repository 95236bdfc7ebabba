import Criterion.Condition

/-!
# The two stacks of an evaluation

`evaluate` takes null where a value is missing on its stack, and looks at no more than the top of
what is left at the end, so a mistake in the order of the steps could go unseen. `runSteps?` takes the
same steps and gives up instead. It never does: whatever steps are left and whatever values lie below,
visiting a node puts its value on the stack and touches nothing else.
-/

namespace Criterion

namespace Node

/-- Takes the steps as `runSteps` does, and fails where a value is to be taken off an empty stack. -/
def runSteps? (context : Option Datum) : List Step → List Operand → Option (List Operand)
  | [], values => some values
  | .visit (.leaf literal) :: steps, values =>
    runSteps? context steps (literal.resolve context :: values)
  | .visit (.branch _ none _) :: steps, values => runSteps? context steps (.null :: values)
  | .visit (.branch op (some left) none) :: steps, values =>
    runSteps? context (.visit left :: .apply op false :: steps) values
  | .visit (.branch op (some left) (some right)) :: steps, values =>
    runSteps? context (.visit left :: .visit right :: .apply op true :: steps) values
  | .apply op true :: steps, right :: left :: values =>
    runSteps? context steps (combine op left right :: values)
  | .apply op false :: steps, left :: values =>
    runSteps? context steps (combine op left (.bool false) :: values)
  | .apply _ _ :: _, _ => none
termination_by steps => Step.weights steps
decreasing_by
  all_goals simp only [Step.weights, Step.weight, size, childSize]
  all_goals omega

/-- Where no value is missing, failing on a missing one makes no difference. -/
theorem runSteps_of_runSteps? {context : Option Datum} {steps : List Step}
    {values rest : List Operand} (h : runSteps? context steps values = some rest) :
    runSteps context steps values = rest := by
  fun_induction runSteps? context steps values with
  | case1 values => rw [runSteps]; exact Option.some.inj h
  | case2 values literal steps ih => rw [runSteps]; exact ih h
  | case3 values op right steps ih => rw [runSteps]; exact ih h
  | case4 values op left steps ih => rw [runSteps]; exact ih h
  | case5 values op left right steps ih => rw [runSteps]; exact ih h
  | case6 op steps right left values ih => rw [runSteps]; exact ih h
  | case7 op steps left values ih => rw [runSteps]; exact ih h
  | case8 => cases h

/-- Visiting a node takes no value off the stack and leaves its own on top. -/
theorem runSteps?_visit (context : Option Datum) (node : Node) (steps : List Step)
    (values : List Operand) :
    runSteps? context (.visit node :: steps) values =
      runSteps? context steps (value context node :: values) := by
  -- for all steps behind: a child is visited with its parent still to be joined
  induction node generalizing steps values with
  | leaf literal => rw [runSteps?, value]
  | branch op left right ihl ihr =>
      cases left with
      | none => rw [runSteps?, value]
      | some l =>
          cases right with
          | none => rw [runSteps?, ihl l rfl, runSteps?, value]
          | some r => rw [runSteps?, ihl l rfl, ihr r rfl, runSteps?, value]

theorem runSteps?_single (context : Option Datum) (node : Node) :
    runSteps? context [.visit node] [] = some [value context node] := by
  rw [runSteps?_visit, runSteps?]

theorem evaluate_eq_value (context : Option Datum) (node : Node) :
    evaluate context node = value context node := by
  rw [evaluate, runSteps_of_runSteps? (runSteps?_single context node)]
  rfl

/-- The empty branch is null, so that it need not be told apart. -/
theorem value_of_isEmpty {context : Option Datum} {node : Node} (h : node.isEmpty = true) :
    value context node = .null := by
  unfold isEmpty at h
  split at h
  · rw [value]
  · cases h

end Node

/-- A condition holds when the value of its tree is the truth value true. -/
theorem Condition.holds_iff (c : Condition) (context : Option Datum) :
    c.holds context = true ↔ c.root.value context = .bool true := by
  unfold holds
  rw [Node.evaluate_eq_value, Bool.and_eq_true, beq_iff_eq, Bool.not_eq_true']
  -- the empty condition is told apart before its value is found, but that is null anyway
  refine ⟨And.right, fun h => ⟨?_, h⟩⟩
  cases he : c.isEmpty with
  | false => rfl
  | true => rw [Node.value_of_isEmpty he] at h; cases h

/-- **Evaluation with two stacks is evaluation by recursion**: no value is ever missing, one value is
left at the end, and it is the value of the tree; the tree holds as a condition when that is true. -/
theorem evaluate_two_stacks (node : Node) (context : Option Datum) :
    Node.runSteps? context [.visit node] [] = some [node.value context] ∧
      Node.runSteps context [.visit node] [] = [node.value context] ∧
      node.evaluate context = node.value context ∧
      ((Condition.mk node).holds context = true ↔ node.value context = .bool true) :=
  ⟨Node.runSteps?_single context node,
    Node.runSteps_of_runSteps? (Node.runSteps?_single context node),
    Node.evaluate_eq_value context node, Condition.holds_iff ⟨node⟩ context⟩

end Criterion
