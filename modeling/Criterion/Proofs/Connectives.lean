import Criterion.Proofs.Acceptance
import Criterion.Proofs.Builder.Replacement
import Criterion.Proofs.Grouping

/-!
# The logical operators of a condition

Every `&&` and `||` of a condition gets a branch of its own, with both children from the start. Read
from left to right, the logical operators of the tree are those of the text, in their order, less
the ones that a comparison operator has replaced. This happens where a comparison operator comes
right behind a closing parenthesis that has closed a logical operator in place of a group; each time
it costs one of them.
-/

namespace Criterion

/-! ## The logical operators of a tree and of a text -/

namespace Node

/-- The operator of a branch, if it is a logical one. -/
def ownConnectives : Option Operator → List Operator
  | some op => if op.isLogical then [op] else []
  | none => []

mutual

/-- The logical operators of a tree, from left to right. -/
def connectives : Node → List Operator
  | leaf _ => []
  | branch op left right =>
    childConnectives left ++ (ownConnectives op ++ childConnectives right)

def childConnectives : Option Node → List Operator
  | none => []
  | some n => connectives n

end

/-- Is it the branch of a logical operator? -/
def isJoined : Node → Bool
  | branch op _ _ => op.any Operator.isLogical
  | leaf _ => false

theorem ownConnectives_of_comparison {op : Operator} (h : op.isLogical = false) :
    ownConnectives (some op) = [] := by
  rw [ownConnectives, if_neg (by simp [h])]

theorem length_ownConnectives (op : Option Operator) :
    (ownConnectives op).length = if op.any Operator.isLogical then 1 else 0 := by
  cases op with
  | none => rfl
  | some op => cases h : op.isLogical <;> simp [ownConnectives, h]

end Node

namespace Token

/-- The logical operator that a token is, if it is one. -/
def connective? : Token → Option Operator
  | operator op => if op.isLogical then some op else none
  | _ => none

/-- Is this a comparison operator? -/
def isComparison : Token → Bool
  | operator op => !op.isLogical
  | _ => false

/-- What is open after a token. A closing parenthesis closes what was opened last, be it a group or
a logical operator. -/
def openings (opened : List Opening) : Token → List Opening
  | openGroup => .group :: opened
  | closeGroup => opened.tail
  | operator op => if op.isLogical then .operator :: opened else opened
  | word _ => opened

/-- Is the focus on the branch of a logical operator after a token? Only a closing parenthesis leads
to one. -/
def joins (joined : Bool) (opened : List Opening) : Token → Bool
  | closeGroup =>
    match opened with
    | [] => joined
    | o :: _ => o == .operator
  | word _ => joined
  | _ => false

/-- How many logical operators a token replaces: one, if it is a comparison operator that comes
where the focus is on the branch of a logical operator. -/
def replaced (joined : Bool) (t : Token) : Nat := if joined && t.isComparison then 1 else 0

end Token

/-- How many logical operators are replaced by comparison operators in a list of tokens. -/
def replacedConnectives (joined : Bool) (opened : List Opening) : List Token → Nat
  | [] => 0
  | t :: ts =>
    t.replaced joined + replacedConnectives (t.joins joined opened) (t.openings opened) ts

/-! ## What a token does to them -/

theorem Token.connectives_operand {t : Token} {n : Node} (h : t.operand? = some n) :
    n.connectives = [] ∧ t.connective? = none ∧ t.isComparison = false := by
  cases t with
  | openGroup => cases h; exact ⟨rfl, rfl, rfl⟩
  | word w => cases h; exact ⟨rfl, rfl, rfl⟩
  | closeGroup => cases h
  | operator op => cases h

namespace Node.Takes

variable {n m : Node} {t : Token}

/-- No operator comes but that of the token, and none comes before another one. -/
theorem connectives_sublist (h : n.Takes t m) :
    m.connectives.Sublist (n.connectives ++ t.connective?.toList) := by
  cases h with
  | first op hx =>
      obtain ⟨hnew, hnone, -⟩ := Token.connectives_operand hx
      simp [connectives, childConnectives, hnew, hnone]
  | second op l hx =>
      obtain ⟨hnew, hnone, -⟩ := Token.connectives_operand hx
      simp [connectives, childConnectives, hnew, hnone]
  | close => exact List.sublist_append_left _ _
  | join n ho =>
      simp [connectives, childConnectives, ownConnectives, Node.empty, Token.connective?, ho]
  | compare old left right ho =>
      -- the operator that the branch had is gone, and a comparison operator does not count
      have hrest : (childConnectives right).Sublist
          (ownConnectives old ++ childConnectives right) := List.sublist_append_right _ _
      simp [connectives, ownConnectives_of_comparison ho, Token.connective?, ho, hrest]

/-- One is lost where a comparison operator is set on the branch of a logical one. -/
theorem length_connectives (h : n.Takes t m) :
    m.connectives.length + t.replaced n.isJoined =
      n.connectives.length + t.connective?.toList.length := by
  cases h with
  | first op hx =>
      obtain ⟨hnew, hnone, hcomp⟩ := Token.connectives_operand hx
      simp [connectives, childConnectives, hnew, hnone, Token.replaced, hcomp]
  | second op l hx =>
      obtain ⟨hnew, hnone, hcomp⟩ := Token.connectives_operand hx
      simp [connectives, childConnectives, hnew, hnone, Token.replaced, hcomp]
  | close => simp [Token.connective?, Token.replaced, Token.isComparison]
  | join n ho =>
      simp [connectives, childConnectives, ownConnectives, Node.empty, Token.connective?,
        Token.replaced, Token.isComparison, ho]
  | compare old left right ho =>
      -- here the operator that the branch had is counted as replaced, if it was a logical one
      have hold := length_ownConnectives old
      simp only [connectives, ownConnectives_of_comparison ho, isJoined, Token.connective?,
        Token.replaced, Token.isComparison, ho, List.length_append, List.length_nil, hold,
        Bool.not_false, Bool.and_true, Bool.false_eq_true, if_false, Option.toList_none]
      omega

end Node.Takes

/-! ## Where the focus stands -/

/-- Is the branch around the gap that of a logical operator? -/
def Frame.isJoined (f : Frame) : Bool := f.op.any Operator.isLogical

/-- Whether the focus is on the branch of a logical operator, and which of the branches around it
are, is as it is said; and such a branch has got both its operands. -/
structure Zipper.Stands (z : Zipper) (joined : Bool) (opened : List Opening) : Prop where
  here : z.op.any Operator.isLogical = joined
  full : joined = true → z.operands.count = 2
  around : z.frames.map Frame.isJoined = opened.map (· == .operator)
  entered : ∀ f ∈ z.frames, f.isJoined = true → f.count = 2

namespace Zipper.Stands

variable {z z' : Zipper} {joined : Bool} {opened : List Opening}

theorem new : Zipper.Stands {} false [] := ⟨rfl, nofun, rfl, nofun⟩

theorem push (hs : z.Stands joined opened) {literal : Operand} (h : z.push literal = .ok z') :
    z'.Stands joined opened := by
  obtain ⟨op, operands, frames⟩ := z
  cases operands with
  | empty =>
      cases h
      -- the branch of a logical operator is full, and this one is empty
      refine ⟨hs.here, fun hj => ?_, hs.around, hs.entered⟩
      cases hs.full hj
  | one l =>
      cases h
      exact ⟨hs.here, fun _ => rfl, hs.around, hs.entered⟩
  | two l r => cases h

/-- One more branch comes around the focus, and the focus is empty. -/
theorem descend {f : Frame} {o : Opening} (hs : z.Stands joined opened)
    (hf : f.isJoined = (o == .operator)) (hcount : f.isJoined = true → f.count = 2) :
    Zipper.Stands { frames := f :: z.frames } false (o :: opened) := by
  refine ⟨rfl, nofun, ?_, ?_⟩
  · rw [List.map_cons, List.map_cons, hf, hs.around]
  · intro g hg hjoined
    rcases List.mem_cons.mp hg with rfl | hg
    · exact hcount hjoined
    · exact hs.entered g hg hjoined

/-- A group is opened in a branch with a free place, which is not that of a logical operator. -/
theorem openGroup (hs : z.Stands joined opened) (h : z.openGroup = .ok z') :
    z'.Stands false (.group :: opened) := by
  obtain ⟨op, operands, frames⟩ := z
  -- a branch that takes one more operand is not that of a logical operator
  have hop : operands.count ≠ 2 → op.any Operator.isLogical = false := fun hne => by
    cases hj : joined with
    | false => exact hj ▸ hs.here
    | true => exact absurd (hs.full hj) hne
  cases operands with
  | empty =>
      cases h
      have hf : (Frame.first op).isJoined = false := hop nofun
      exact hs.descend hf (by rw [hf]; exact nofun)
  | one l =>
      cases h
      have hf : (Frame.second op l).isJoined = false := hop nofun
      exact hs.descend hf (by rw [hf]; exact nofun)
  | two l r => cases h

theorem closeGroup (hs : z.Stands joined opened) :
    z.closeGroup.Stands (Token.closeGroup.joins joined opened)
      (Token.closeGroup.openings opened) := by
  obtain ⟨op, operands, frames⟩ := z
  obtain ⟨hhere, hfull, haround, hentered⟩ := hs
  cases frames with
  | nil =>
      have hnil : opened = [] := by simpa using haround.symm
      subst hnil
      exact ⟨hhere, hfull, rfl, hentered⟩
  | cons f frames =>
      cases opened with
      | nil => cases haround
      | cons o opened =>
          rw [List.map_cons, List.map_cons, List.cons.injEq] at haround
          obtain ⟨hf, haround⟩ := haround
          refine ⟨hf, fun hj => ?_, haround, fun g hg => hentered g (List.mem_cons_of_mem _ hg)⟩
          -- the branch that is come back to has got what was in the focus
          have hcount := hentered f List.mem_cons_self (hf.trans hj)
          exact (f.count_operands _).trans hcount

/-- **Preserved by every token.** -/
theorem feed {t : Token} (hs : z.Stands joined opened) (h : z.feed t = .ok z') :
    z'.Stands (t.joins joined opened) (t.openings opened) := by
  cases t with
  | openGroup => exact hs.openGroup h
  | closeGroup =>
      obtain rfl : z.closeGroup = z' := Except.ok.inj h
      exact hs.closeGroup
  | word w => exact hs.push h
  | operator op =>
      cases hop : op.isLogical with
      | true =>
          rw [Zipper.feed_logical hop] at h
          obtain rfl : z.shift op = z' := Except.ok.inj h
          rw [Token.openings, if_pos hop]
          exact hs.descend (f := .second (some op) z.node) hop fun _ => rfl
      | false =>
          rw [Zipper.feed_comparison hop] at h
          obtain rfl : z.setOperator op = z' := Except.ok.inj h
          rw [Token.openings, if_neg (by simp [hop])]
          exact ⟨hop, nofun, hs.around, hs.entered⟩

end Zipper.Stands

/-! ## What a token does to the whole tree -/

/-- What is added to the focus is added at the end of the tree, if no branch of a logical operator
is entered through its first operand. -/
theorem connectives_enclose_sublist {m n : Node} {added : List Operator}
    (h : m.connectives.Sublist (n.connectives ++ added)) {frames : List Frame}
    (hentered : ∀ f ∈ frames, f.isJoined = true → f.count = 2) :
    (enclose frames m).connectives.Sublist ((enclose frames n).connectives ++ added) := by
  induction frames generalizing m n with
  | nil => exact h
  | cons f frames ih =>
      have hf := hentered f List.mem_cons_self
      refine ih ?_ fun g hg => hentered g (List.mem_cons_of_mem _ hg)
      cases f with
      | first op =>
          -- here the operator of the branch would come behind what is added
          have hnone : Node.ownConnectives op = [] := by
            have hlen := Node.length_ownConnectives op
            cases hop : op.any Operator.isLogical with
            | false => simpa [hop] using hlen
            | true => cases hf hop
          simpa [Frame.around, Node.connectives, Node.childConnectives, hnone] using h
      | second op l => simpa [Frame.around, Node.connectives, Node.childConnectives] using h

/-- What is around the focus holds the same operators whatever is in the focus. -/
theorem length_connectives_enclose (m n : Node) (frames : List Frame) :
    (enclose frames m).connectives.length + n.connectives.length =
      (enclose frames n).connectives.length + m.connectives.length := by
  induction frames generalizing m n with
  | nil => exact Nat.add_comm _ _
  | cons f frames ih =>
      have hrest := ih (f.around m) (f.around n)
      have hhere : (f.around m).connectives.length + n.connectives.length =
          (f.around n).connectives.length + m.connectives.length := by
        cases f with
        | first op =>
            simp only [Frame.around, Node.connectives, Node.childConnectives, List.length_append]
            omega
        | second op l =>
            simp only [Frame.around, Node.connectives, Node.childConnectives, List.length_append]
            omega
      rw [enclose_cons, enclose_cons]
      omega

namespace Zipper

variable {z z' : Zipper} {joined : Bool} {opened : List Opening}

/-- A token changes the operators of the tree as it does those of the focus. -/
theorem connectives_feed {t : Token} (hs : z.Stands joined opened) (h : z.feed t = .ok z') :
    z'.tree.connectives.Sublist (z.tree.connectives ++ t.connective?.toList) ∧
      z'.tree.connectives.length + t.replaced joined =
        z.tree.connectives.length + t.connective?.toList.length := by
  obtain ⟨m, hm, htree⟩ := takes_of_feed h
  rw [htree]
  constructor
  · exact connectives_enclose_sublist hm.connectives_sublist hs.entered
  · -- what is around the focus counts the same before and after
    have hfocus : z.node.isJoined = joined := hs.here
    have hhere := hm.length_connectives
    have haround : (enclose z.frames m).connectives.length + z.node.connectives.length =
        z.tree.connectives.length + m.connectives.length :=
      length_connectives_enclose m z.node z.frames
    rw [hfocus] at hhere
    omega

/-- **The logical operators that come are added in order, less those that are replaced.** -/
theorem connectives_foldlM {ts : List Token} (hs : z.Stands joined opened)
    (h : ts.foldlM Zipper.feed z = .ok z') :
    z'.tree.connectives.Sublist (z.tree.connectives ++ ts.filterMap Token.connective?) ∧
      z'.tree.connectives.length + replacedConnectives joined opened ts =
        z.tree.connectives.length + (ts.filterMap Token.connective?).length := by
  -- `Stands` carries the induction: it says what the focus is on after each token
  induction ts generalizing z joined opened with
  | nil => cases h; simp [replacedConnectives]
  | cons t ts ih =>
      obtain ⟨y, hy, hrest⟩ := foldlM_cons_eq_ok_iff.mp h
      obtain ⟨hsub, hlen⟩ := connectives_feed hs hy
      obtain ⟨hsub', hlen'⟩ := ih (hs.feed hy) hrest
      have hcons : (t :: ts).filterMap Token.connective? =
          t.connective?.toList ++ ts.filterMap Token.connective? := by
        rw [List.filterMap_cons]
        cases t.connective? <;> rfl
      rw [hcons, ← List.append_assoc, List.length_append, replacedConnectives]
      refine ⟨hsub'.trans (hsub.append_right _), ?_⟩
      omega

end Zipper

/-- The tree has the logical operators of the text just if none has been replaced. -/
theorem connectives_of_parse_iff {text : String} {c : Condition}
    (h : Condition.parse text = .ok c) :
    c.root.connectives = (tokenize text).filterMap Token.connective? ↔
      replacedConnectives false [] (tokenize text) = 0 := by
  obtain ⟨z, hz, hroot⟩ := exists_read_of_parse h
  obtain ⟨hsub, hlen⟩ := Zipper.connectives_foldlM Zipper.Stands.new hz
  have hempty : Zipper.tree {} = .empty := rfl
  have hnone : Node.empty.connectives = [] := rfl
  rw [hempty, hnone, List.nil_append] at hsub
  rw [hempty, hnone, List.length_nil] at hlen
  rw [hroot]
  constructor
  · intro heq
    rw [heq] at hlen
    omega
  · intro hzero
    exact hsub.eq_of_length (by omega)

/-- **When operators are kept.** A run of the builder keeps the operator of every branch that has
got one and both children, over these children, just if it never sets another operator on such a
branch. A parsed condition has the `&&` and `||` of its text, in their order, just if no comparison
operator comes where a closing parenthesis has led back to the branch of one of them. -/
theorem operators_kept_iff (ops : List Operation) (text : String) :
    (Builder.KeepsOperators ops ↔ Builder.new.spares ops = true) ∧
      ∀ c, Condition.parse text = .ok c →
        (c.root.connectives = (tokenize text).filterMap Token.connective? ↔
          replacedConnectives false [] (tokenize text) = 0) :=
  ⟨Builder.keepsOperators_iff_spares ops, fun _ h => connectives_of_parse_iff h⟩

/-- The closing parenthesis leads back to the branch of `||`, but what comes next is a logical
operator. -/
theorem operators_kept_behind_group :
    Builder.KeepsOperators ((tokenize "(1 == 1 || 2 == 2) && %a").map Token.operation) ∧
      ∃ c, Condition.parse "(1 == 1 || 2 == 2) && %a" = .ok c ∧
        replacedConnectives false [] (tokenize "(1 == 1 || 2 == 2) && %a") = 0 ∧
        c.root.connectives = [.or, .and] := by
  obtain ⟨c, hc⟩ :=
    (exists_ok_iff (Condition.parse "(1 == 1 || 2 == 2) && %a")).mpr (by decide +kernel)
  have hspares : Builder.new.spares
      ((tokenize "(1 == 1 || 2 == 2) && %a").map Token.operation) = true := by decide +kernel
  have hzero : replacedConnectives false [] (tokenize "(1 == 1 || 2 == 2) && %a") = 0 := by
    decide +kernel
  have htext : (tokenize "(1 == 1 || 2 == 2) && %a").filterMap Token.connective? =
      [.or, .and] := by decide +kernel
  obtain ⟨hrun, hparsed⟩ := operators_kept_iff
    ((tokenize "(1 == 1 || 2 == 2) && %a").map Token.operation) "(1 == 1 || 2 == 2) && %a"
  exact ⟨hrun.mpr hspares, c, hc, hzero, ((hparsed c hc).mpr hzero).trans htext⟩

/-- The closing parenthesis leads back to the complete branch of `&&`, and `==` takes its place: no
`&&` is left in the tree. A comparison that a second operator follows loses the first. -/
theorem operator_lost_behind_group :
    (tokenize "(1 == 1 && 2 == 2) ==").filterMap Token.connective? = [.and] ∧
      (Condition.parse "(1 == 1 && 2 == 2) ==").toOption.map (fun c => c.root.connectives) =
        some [] ∧
      ¬ Builder.KeepsOperators ((tokenize "(1 == 1 && 2 == 2) ==").map Token.operation) ∧
      ¬ Builder.KeepsOperators ((tokenize "1 == 2 !=").map Token.operation) := by
  refine ⟨by decide +kernel, by decide +kernel, ?_, ?_⟩
  · exact Builder.not_keepsOperators (by decide +kernel)
  · exact Builder.not_keepsOperators (by decide +kernel)

end Criterion
