import Criterion.Proofs.Except
import Criterion.Proofs.Parsing

/-!
# The parts of a tree, and what a token does to them

The literals of a tree are read from left to right, and its nodes are all that can be reached from
its root. A token changes no more than the branch in focus: it fills a place of it, joins it to an
empty branch, or gives it an operator. What is said of one token in `Zipper.takes_of_feed` carries
over to the whole tree, since the branches around the focus stay as they are.
-/

namespace Criterion

namespace Node

mutual

/-- The literals of a tree, from left to right. -/
def leaves : Node → List Operand
  | leaf literal => [literal]
  | branch _ left right => childLeaves left ++ childLeaves right

def childLeaves : Option Node → List Operand
  | none => []
  | some n => leaves n

end

mutual

/-- All the nodes of a tree, itself among them, each before its children. -/
def subtrees : Node → List Node
  | leaf literal => [leaf literal]
  | branch op left right =>
    branch op left right :: (childSubtrees left ++ childSubtrees right)

def childSubtrees : Option Node → List Node
  | none => []
  | some n => subtrees n

end

theorem mem_subtrees_branch {n : Node} {op : Option Operator} {left right : Option Node} :
    n ∈ (branch op left right).subtrees ↔
      n = branch op left right ∨ n ∈ childSubtrees left ∨ n ∈ childSubtrees right := by
  rw [subtrees, List.mem_cons, List.mem_append]

end Node

/-! ## What one token does -/

/-- The node that a token puts into the first free place, if it is of this kind. -/
def Token.operand? : Token → Option Node
  | openGroup => some .empty
  | word w => some (.leaf (.ofWord w))
  | _ => none

/-- `n.Takes t m`: the branch `n` in focus becomes `m` when the token `t` comes. -/
inductive Node.Takes : Node → Token → Node → Prop where
  | first {t : Token} {n : Node} (op : Option Operator) :
      t.operand? = some n → Takes (.branch op none none) t (.branch op (some n) none)
  | second {t : Token} {n : Node} (op : Option Operator) (l : Node) :
      t.operand? = some n → Takes (.branch op (some l) none) t (.branch op (some l) (some n))
  | close (n : Node) : Takes n .closeGroup n
  | join {op : Operator} (n : Node) :
      op.isLogical = true → Takes n (.operator op) (.branch (some op) (some n) (some .empty))
  | compare {op : Operator} (old : Option Operator) (left right : Option Node) :
      op.isLogical = false →
        Takes (.branch old left right) (.operator op) (.branch (some op) left right)

/-- **A token changes the branch in focus and nothing around it.** -/
theorem Zipper.takes_of_feed {z z' : Zipper} {t : Token} (h : z.feed t = .ok z') :
    ∃ m, z.node.Takes t m ∧ z'.tree = enclose z.frames m := by
  obtain ⟨op, operands, frames⟩ := z
  cases t with
  | openGroup =>
      change Zipper.openGroup _ = .ok z' at h
      -- a group or a word: the first free place is filled, if there is one
      cases operands with
      | empty => cases h; exact ⟨_, .first op rfl, rfl⟩
      | one l => cases h; exact ⟨_, .second op l rfl, rfl⟩
      | two l r => cases h
  | closeGroup =>
      -- only the focus moves
      obtain rfl : Zipper.closeGroup _ = z' := Except.ok.inj h
      exact ⟨_, .close _, tree_closeGroup _⟩
  | operator o =>
      cases ho : o.isLogical with
      | true =>
          rw [feed_logical ho] at h
          obtain rfl : Zipper.shift _ o = z' := Except.ok.inj h
          exact ⟨_, .join _ ho, rfl⟩
      | false =>
          rw [feed_comparison ho] at h
          obtain rfl : Zipper.setOperator _ o = z' := Except.ok.inj h
          exact ⟨_, .compare op _ _ ho, rfl⟩
  | word w =>
      change Zipper.push _ (.ofWord w) = .ok z' at h
      cases operands with
      | empty => cases h; exact ⟨_, .first op rfl, rfl⟩
      | one l => cases h; exact ⟨_, .second op l rfl, rfl⟩
      | two l r => cases h

/-! ## A parsed condition -/

/-- A parsed condition is the tree of a zipper that has read its tokens. -/
theorem exists_read_of_parse {text : String} {c : Condition} (h : Condition.parse text = .ok c) :
    ∃ z, Zipper.read (tokenize text) = .ok z ∧ c.root = z.tree := by
  rw [parse_eq_ofTokens, ofTokens_eq] at h
  obtain ⟨z, hz, rfl⟩ := map_eq_ok_iff.mp h
  exact ⟨z, hz, rfl⟩

end Criterion
