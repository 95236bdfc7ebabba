import Criterion.Condition

/-!
# A tree with one branch in focus

What a builder does, said without an arena. An unfinished tree is taken apart at the branch that is
being filled: the operands this branch has got so far, and the branches around it, innermost first.

The operands of a branch come from left to right, and a branch is entered through the operand it got
last. Both are part of the types here: there is no second operand without a first one, and nothing
to the right of the focus.
-/

namespace Criterion

/-- A thing to do to an unfinished tree. -/
inductive Operation where
  | push (literal : Operand)
  | openGroup
  | closeGroup
  | shift (op : Operator)
  | setOperator (op : Operator)
deriving DecidableEq, Repr

/-- The operation that a token of a condition stands for. -/
def Token.operation : Token → Operation
  | openGroup => .openGroup
  | closeGroup => .closeGroup
  | operator op => if op.isLogical then .shift op else .setOperator op
  | word w => .push (.ofWord w)

/-- The operands that a branch has got. -/
inductive Operands where
  | empty
  | one (left : Node)
  | two (left right : Node)
deriving Repr

namespace Operands

def left? : Operands → Option Node
  | empty => none
  | one l => some l
  | two l _ => some l

def right? : Operands → Option Node
  | two _ r => some r
  | _ => none

/-- Puts an operand into the first free place. -/
def add (n : Node) : Operands → Except ConditionError Operands
  | empty => .ok (one n)
  | one l => .ok (two l n)
  | two _ _ => .error .malformedOperands

end Operands

/-- A branch with a gap in the place of its last operand. -/
inductive Frame where
  | first (op : Option Operator)
  | second (op : Option Operator) (left : Node)
deriving Repr

namespace Frame

/-- The branch, with the gap filled. -/
def around (n : Node) : Frame → Node
  | first op => .branch op (some n) none
  | second op l => .branch op (some l) (some n)

def op : Frame → Option Operator
  | first op => op
  | second op _ => op

/-- The operands of the branch, with the gap filled. -/
def operands (n : Node) : Frame → Operands
  | first _ => .one n
  | second _ l => .two l n

end Frame

/-- A node inside of frames, the innermost of which comes first. -/
def enclose (frames : List Frame) (n : Node) : Node := frames.foldl Frame.around n

@[simp] theorem enclose_cons (f : Frame) (frames : List Frame) (n : Node) :
    enclose (f :: frames) n = enclose frames (f.around n) := rfl

theorem enclose_append (inner outer : List Frame) (n : Node) :
    enclose (inner ++ outer) n = enclose outer (enclose inner n) := List.foldl_append

/-- A tree, taken apart at one of its branches. -/
structure Zipper where
  op : Option Operator := none
  operands : Operands := .empty
  frames : List Frame := []
deriving Repr

namespace Zipper

/-- The branch in focus. -/
def node (z : Zipper) : Node := .branch z.op z.operands.left? z.operands.right?

/-- The whole tree. -/
def tree (z : Zipper) : Node := enclose z.frames z.node

/-- Fills the first free place of the focus. -/
def push (z : Zipper) (literal : Operand) : Except ConditionError Zipper := do
  return { z with operands := ← z.operands.add (.leaf literal) }

/-- Fills the first free place of the focus with an empty branch, and takes that as the focus. -/
def openGroup (z : Zipper) : Except ConditionError Zipper :=
  match z.operands with
  | .empty => .ok { frames := .first z.op :: z.frames }
  | .one l => .ok { frames := .second z.op l :: z.frames }
  | .two _ _ => .error .malformedOperands

/-- Takes the parent of the focus as the focus. The root stays. -/
def closeGroup (z : Zipper) : Zipper :=
  match z.frames with
  | [] => z
  | f :: frames => { op := f.op, operands := f.operands z.node, frames }

theorem closeGroup_frames (z : Zipper) : z.closeGroup.frames = z.frames.tail := by
  obtain ⟨op, operands, _ | ⟨f, frames⟩⟩ := z <;> rfl

/-- To close a group is to look elsewhere in the same tree. -/
theorem tree_closeGroup (z : Zipper) : z.closeGroup.tree = z.tree := by
  obtain ⟨op, operands, _ | ⟨_ | _, frames⟩⟩ := z <;> rfl

/-- Puts a branch of an operator, the focus, and an empty branch in the place of the focus, and takes
the empty branch as the focus. -/
def shift (z : Zipper) (op : Operator) : Zipper where
  frames := .second (some op) z.node :: z.frames

/-- Replaces the operator of the focus. -/
def setOperator (z : Zipper) (op : Operator) : Zipper := { z with op := some op }

/-- Does an operation, or fails for want of a free place. -/
def perform (z : Zipper) : Operation → Except ConditionError Zipper
  | .push literal => z.push literal
  | .openGroup => z.openGroup
  | .closeGroup => .ok z.closeGroup
  | .shift op => .ok (z.shift op)
  | .setOperator op => .ok (z.setOperator op)

/-- Does an operation, unless it fails. -/
def step (z : Zipper) (o : Operation) : Zipper := (z.perform o).toOption.getD z

/-- Does operations, one after the other, on the tree of one empty branch. Those that fail are left
out. -/
def run (ops : List Operation) : Zipper := ops.foldl step {}

end Zipper

namespace Builder

/-- Does an operation, or fails for want of a free place. -/
def perform (b : Builder) : Operation → Except ConditionError Builder
  | .push literal => b.pushValue literal
  | .openGroup => b.openGroup
  | .closeGroup => .ok b.closeGroup
  | .shift op => .ok (b.shift op)
  | .setOperator op => .ok (b.setOperator op)

/-- Does an operation, unless it fails. -/
def step (b : Builder) (o : Operation) : Builder := (b.perform o).toOption.getD b

/-- Does operations, one after the other, on a new builder. Those that fail are left out. -/
def run (ops : List Operation) : Builder := ops.foldl step new

/-- To feed a token is to do its operation. -/
theorem feed_eq_perform (b : Builder) (t : Token) : b.feed t = b.perform t.operation := by
  cases t with
  | operator op => by_cases h : op.isLogical <;> simp [feed, Token.operation, perform, h]
  | _ => rfl

end Builder

end Criterion
