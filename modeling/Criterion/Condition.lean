import Criterion.Builder.Assembly
import Criterion.Evaluation
import Criterion.Operand.Literal
import Criterion.Token

/-!
# Conditions

A condition is the tree that its text is parsed into. Parsing accepts nearly everything: operands may
be missing, a group may stay open, and a closing parenthesis too many is passed over. It fails only
where a part of the condition gets a third operand.

A condition holds when its value is the truth value true. The empty condition never holds.
-/

namespace Criterion

/-- One token's effect on an unfinished tree. -/
def Builder.feed (b : Builder) : Token → Except ConditionError Builder
  | .openGroup => b.openGroup
  | .closeGroup => .ok b.closeGroup
  | .operator op => .ok (if op.isLogical then b.shift op else b.setOperator op)
  | .word w => b.pushValue (.ofWord w)

structure Condition where
  root : Node
deriving Repr

namespace Condition

def empty : Condition := ⟨.empty⟩

def isEmpty (c : Condition) : Bool := c.root.isEmpty

/-- The condition that a list of tokens makes. -/
def ofTokens (tokens : List Token) : Except ConditionError Condition := do
  let built ← tokens.foldlM Builder.feed Builder.new
  return ⟨built.finish⟩

/-- Parses a condition. A blank text is the empty condition. -/
def parse (text : String) : Except ConditionError Condition :=
  let line := trim text
  -- no tokens would make the empty condition as well
  if line.isEmpty then .ok empty else ofTokens (tokenize line)

/-- Parses a condition that need not be there. -/
def parse? (text : Option String) : Except ConditionError Condition :=
  match text with
  | none => .ok empty
  | some text => parse text

/-- Are two conditions the same tree, decimals taken as the numbers they denote? -/
def same (c d : Condition) : Bool := c.root.same d.root

/-- Does the condition hold in a context, or without one? -/
def holds (c : Condition) (context : Option Datum) : Bool :=
  !c.isEmpty && c.root.evaluate context == .bool true

end Condition

end Criterion
