import Criterion.Proofs.Except
import Criterion.Proofs.Parsing

/-!
# When a condition is refused

Which operands and operators a condition holds has no part in whether it parses. What counts is how
many places of each branch are taken: those of the branch in focus, and those of the branches around
it, which a closing parenthesis comes back to. A machine that keeps these counts, and nothing of the
tree, gets stuck at the very token that is refused.

An opening parenthesis has taken a place of the branch it leaves. A logical operator leaves a branch
with both places taken; a closing parenthesis that comes back to it leads to a branch that takes
nothing more.
-/

namespace Criterion

namespace Token

/-- What kind of token it is. -/
inductive Kind where
  | value
  | opening
  | closing
  | comparison
  | logical
deriving DecidableEq, Repr

/-- The kind of a token: neither its word nor which operator it is. -/
def kind : Token → Kind
  | openGroup => .opening
  | closeGroup => .closing
  | operator op => if op.isLogical then .logical else .comparison
  | word _ => .value

end Token

/-- How many places of the branch in focus are taken, and how many will be of the branches around
it, innermost first, when it is come back to them. -/
structure Tally where
  filled : Nat := 0
  saved : List Nat := []
deriving DecidableEq, Repr

namespace Tally

/-- What a token of a kind does to the counts. Where no place is free it gets stuck. -/
def step (s : Tally) : Token.Kind → Option Tally
  | .value => if s.filled < 2 then some { s with filled := s.filled + 1 } else none
  | .opening => if s.filled < 2 then some ⟨0, (s.filled + 1) :: s.saved⟩ else none
  -- the branch that is left has the focus for its second operand
  | .logical => some ⟨0, 2 :: s.saved⟩
  | .closing =>
    match s.saved with
    | [] => some s
    | count :: saved => some ⟨count, saved⟩
  | .comparison => some s

/-- The counts after tokens of these kinds, from an empty branch with nothing around it. -/
def run (kinds : List Token.Kind) : Option Tally := kinds.foldlM step {}

end Tally

/-! ## The counts of a tree with a focus -/

def Operands.count : Operands → Nat
  | empty => 0
  | one _ => 1
  | two _ _ => 2

/-- How many operands the branch has, the gap counted. -/
def Frame.count : Frame → Nat
  | first _ => 1
  | second _ _ => 2

/-- What the machine knows of a tree with a focus. -/
def Zipper.tally (z : Zipper) : Tally := ⟨z.operands.count, z.frames.map Frame.count⟩

theorem Frame.count_operands (f : Frame) (n : Node) : (f.operands n).count = f.count := by
  cases f <;> rfl

theorem Zipper.tally_push (z : Zipper) (literal : Operand) :
    (z.push literal).toOption.map tally = z.tally.step .value := by
  obtain ⟨op, operands, frames⟩ := z
  cases operands <;> rfl

theorem Zipper.tally_openGroup (z : Zipper) :
    z.openGroup.toOption.map tally = z.tally.step .opening := by
  obtain ⟨op, operands, frames⟩ := z
  cases operands <;> rfl

theorem Zipper.tally_closeGroup (z : Zipper) :
    some z.closeGroup.tally = z.tally.step .closing := by
  obtain ⟨op, operands, frames⟩ := z
  cases frames with
  | nil => rfl
  | cons f frames =>
      -- the operand that comes back into the gap was counted when the gap was made
      have hcount := f.count_operands (Node.branch op operands.left? operands.right?)
      exact congrArg (fun count => some (Tally.mk count (frames.map Frame.count))) hcount

/-- **A token is refused just where the machine gets stuck**, and the counts stay those of the tree.
-/
theorem Zipper.tally_feed (z : Zipper) (t : Token) :
    (z.feed t).toOption.map tally = z.tally.step t.kind := by
  cases t with
  | openGroup => exact z.tally_openGroup
  | closeGroup => exact z.tally_closeGroup
  | word w => exact z.tally_push (.ofWord w)
  | operator op =>
      cases hop : op.isLogical with
      | true =>
          rw [feed_logical hop, Token.kind, if_pos hop]
          rfl
      | false =>
          rw [feed_comparison hop, Token.kind, if_neg (by simp [hop])]
          rfl

theorem Zipper.tally_foldlM (ts : List Token) (z : Zipper) :
    (ts.foldlM Zipper.feed z).toOption.map tally =
      (ts.map Token.kind).foldlM Tally.step z.tally := by
  induction ts generalizing z with
  | nil => rfl
  | cons t ts ih =>
      have hstep := z.tally_feed t
      rw [List.map_cons, List.foldlM_cons, List.foldlM_cons, ← hstep]
      -- the first token that is refused stops both sides
      cases z.feed t with
      | error e => rfl
      | ok y => exact ih y

/-! ## What this says of parsing -/

/-- There is one way of being refused. -/
theorem eq_malformedOperands_iff {α : Type} (x : Except ConditionError α) :
    x = .error .malformedOperands ↔ ¬ x.isOk = true := by
  cases x with
  | error e => cases e; exact ⟨fun _ => nofun, fun _ => rfl⟩
  | ok a => exact ⟨nofun, fun h => absurd rfl h⟩

/-- The machine decides for the whole text. -/
theorem isOk_parse (text : String) :
    (Condition.parse text).isOk = (Tally.run ((tokenize text).map Token.kind)).isSome := by
  have hread : (Zipper.read (tokenize text)).toOption.map Zipper.tally =
      Tally.run ((tokenize text).map Token.kind) := Zipper.tally_foldlM (tokenize text) {}
  rw [parse_eq_ofTokens, ofTokens_eq, ← hread]
  cases Zipper.read (tokenize text) <;> rfl

/-- **A condition is refused just when the machine gets stuck on its tokens**, and gets a tree
otherwise. So two conditions with tokens of the same kinds are both refused or both not. -/
theorem parse_eq_error_iff (text : String) :
    (Condition.parse text = .error .malformedOperands ↔
        Tally.run ((tokenize text).map Token.kind) = none) ∧
      ((∃ c, Condition.parse text = .ok c) ↔
        ∃ s, Tally.run ((tokenize text).map Token.kind) = some s) ∧
      ∀ other, (tokenize other).map Token.kind = (tokenize text).map Token.kind →
        (Condition.parse other).isOk = (Condition.parse text).isOk := by
  refine ⟨?_, ?_, ?_⟩
  · rw [eq_malformedOperands_iff, isOk_parse, Option.not_isSome_iff_eq_none]
  · rw [exists_ok_iff, isOk_parse, Option.isSome_iff_exists]
  · intro other hkinds
    rw [isOk_parse, isOk_parse, hkinds]

/-- The closing parenthesis comes back to the branch of the `&&`, which takes no third operand; what
the words are and which logical operator it is makes no difference. -/
theorem parse_eq_error_behind_group :
    (tokenize "(%a || 'b') null").map Token.kind = (tokenize "(1 && 2) 3").map Token.kind ∧
      Condition.parse "(1 && 2) 3" = .error .malformedOperands ∧
      Tally.run ((tokenize "(1 && 2) 3").map Token.kind) = none ∧
      (Condition.parse "(%a || 'b') null").isOk = (Condition.parse "(1 && 2) 3").isOk := by
  have hkinds : (tokenize "(%a || 'b') null").map Token.kind =
      (tokenize "(1 && 2) 3").map Token.kind := by decide +kernel
  have hstuck : Tally.run ((tokenize "(1 && 2) 3").map Token.kind) = none := by decide +kernel
  obtain ⟨herror, -, hsame⟩ := parse_eq_error_iff "(1 && 2) 3"
  exact ⟨hkinds, herror.mpr hstuck, hstuck, hsame _ hkinds⟩

end Criterion
