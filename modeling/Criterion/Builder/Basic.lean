import Criterion.Error
import Criterion.Node

/-!
# Building a tree at a cursor

A tree is built from left to right. Its branches lie in an arena and refer to each other by index;
a cursor stands on one of them, and a path remembers the branches it came through. An operand goes
into the first free place of the cursor's branch.

A logical operator moves all that the cursor's branch holds into a new left child, takes its place,
and continues in a new right child. This is what makes it bind looser than a comparison. Both an
opened group and a logical operator make the path one step longer; a closed group makes it one step
shorter.
-/

namespace Criterion

/-- What fills a place of a branch: a literal, or the branch at an index of the arena. -/
inductive Child where
  | leaf (literal : Operand)
  | branch (index : Nat)
deriving DecidableEq, Repr

structure Branch where
  op : Option Operator := none
  left : Option Child := none
  right : Option Child := none
deriving DecidableEq, Repr, Inhabited

/-- An unfinished tree. The branch at index 0 is its root; `path` leads from the cursor's parent back
to the root. -/
structure Builder where
  arena : Array Branch
  cursor : Nat
  path : List Nat
deriving DecidableEq, Repr

namespace Builder

/-- The tree of one empty branch, with the cursor on it. -/
def new : Builder where
  arena := #[{}]
  cursor := 0
  path := []

def focus (b : Builder) : Branch := b.arena.getD b.cursor {}

def setFocus (b : Builder) (branch : Branch) : Builder :=
  { b with arena := b.arena.setIfInBounds b.cursor branch }

/-- Adds a branch to the arena; its index is the size the arena had. -/
def alloc (b : Builder) (branch : Branch) : Builder := { b with arena := b.arena.push branch }

/-- Puts a child into the first free place of the cursor's branch. -/
def attach (b : Builder) (child : Child) : Except ConditionError Builder :=
  let branch := b.focus
  if branch.left.isNone then .ok (b.setFocus { branch with left := some child })
  else if branch.right.isNone then .ok (b.setFocus { branch with right := some child })
  else .error .malformedOperands

def pushValue (b : Builder) (literal : Operand) : Except ConditionError Builder :=
  b.attach (.leaf literal)

/-- Moves the cursor down to a branch, from the one it is on. -/
def descend (b : Builder) (index : Nat) : Builder :=
  { b with cursor := index, path := b.cursor :: b.path }

/-- Puts an empty branch into the first free place and moves the cursor into it. -/
def openGroup (b : Builder) : Except ConditionError Builder :=
  -- refused before the arena grows, so that a failure leaves no branch behind
  if b.focus.right.isSome then .error .malformedOperands
  else do
    let index := b.arena.size
    let attached ← (b.alloc {}).attach (.branch index)
    return attached.descend index

/-- Moves the cursor back to the branch it came from. At the root it stays. -/
def closeGroup (b : Builder) : Builder :=
  match b.path with
  | [] => b
  | parent :: path => { b with cursor := parent, path }

/-- Moves what the cursor's branch holds into a new left child, puts a logical operator in its place,
and moves the cursor into a new right child. -/
def shift (b : Builder) (op : Operator) : Builder :=
  let demoted := b.arena.size
  let fresh := demoted + 1
  -- what the branch holds is saved behind the others before its place is overwritten
  let grown := (b.alloc b.focus).alloc {}
  (grown.setFocus { op, left := some (.branch demoted), right := some (.branch fresh) }).descend fresh

/-- Gives the cursor's branch an operator, in place of the one it may have had. -/
def setOperator (b : Builder) (op : Operator) : Builder := b.setFocus { b.focus with op }

end Builder

end Criterion
