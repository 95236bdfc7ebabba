import Criterion.Proofs.Parts

/-!
# The words of a condition are the leaves of its tree

The cursor goes down with an opening parenthesis, up with a closing one, and a logical operator
moves whole subtrees to another place. All the same there is never anything to the right of the
branch in focus, so that the next word comes after all the words before it. This holds whatever the
tokens are: where parentheses are missing or too many, and where operators stand without operands.
-/

namespace Criterion

/-- The literal of a token, if it is a word. -/
def Token.literal? : Token → Option Operand
  | word w => some (.ofWord w)
  | _ => none

/-! ## The leaves, from left to right -/

/-- What is added at the end of the focus is added at the end of the tree. -/
theorem leaves_enclose {m n : Node} {added : List Operand} (h : m.leaves = n.leaves ++ added)
    (frames : List Frame) :
    (enclose frames m).leaves = (enclose frames n).leaves ++ added := by
  -- from the inside out: the gap of a branch is its last operand, so it has nothing behind it
  induction frames generalizing m n with
  | nil => exact h
  | cons f frames ih =>
      refine ih ?_
      cases f with
      | first op => simp [Frame.around, Node.leaves, Node.childLeaves, h]
      | second op l => simp [Frame.around, Node.leaves, Node.childLeaves, h]

theorem Token.leaves_operand {t : Token} {n : Node} (h : t.operand? = some n) :
    n.leaves = t.literal?.toList := by
  cases t with
  | openGroup => cases h; rfl
  | word w => cases h; rfl
  | closeGroup => cases h
  | operator op => cases h

/-- In the branch in focus a word is added at the end, and no other token adds a leaf. -/
theorem Node.Takes.leaves {n m : Node} {t : Token} (h : n.Takes t m) :
    m.leaves = n.leaves ++ t.literal?.toList := by
  cases h with
  | first op hx => simp [Node.leaves, childLeaves, Token.leaves_operand hx]
  | second op l hx => simp [Node.leaves, childLeaves, Token.leaves_operand hx]
  | close => simp [Token.literal?]
  | join n ho => simp [Node.leaves, childLeaves, Node.empty, Token.literal?]
  | compare old left right ho => simp [Node.leaves, Token.literal?]

/-- In the whole tree it is likewise. -/
theorem Zipper.leaves_feed {z z' : Zipper} {t : Token} (h : z.feed t = .ok z') :
    z'.tree.leaves = z.tree.leaves ++ t.literal?.toList := by
  obtain ⟨m, hm, htree⟩ := takes_of_feed h
  rw [htree, leaves_enclose hm.leaves]
  rfl

/-- **The words that come are the leaves that are added, in order.** -/
theorem Zipper.leaves_foldlM {ts : List Token} {z z' : Zipper}
    (h : ts.foldlM Zipper.feed z = .ok z') :
    z'.tree.leaves = z.tree.leaves ++ ts.filterMap Token.literal? := by
  induction ts generalizing z with
  | nil => cases h; simp
  | cons t ts ih =>
      obtain ⟨y, hy, hrest⟩ := foldlM_cons_eq_ok_iff.mp h
      rw [ih hrest, leaves_feed hy, List.append_assoc, List.filterMap_cons]
      cases t.literal? <;> rfl

/-- No word stands for a truth value. -/
theorem Operand.ofWord_ne_bool (w : String) (b : Bool) : ofWord w ≠ .bool b := by
  -- a reference, the blank mark, a text between quotes, a number, and any other word
  unfold ofWord
  split
  · exact nofun
  · split
    · exact nofun
    · split
      · exact nofun
      · split
        · exact nofun
        · unfold ofPlainWord
          split <;> exact nofun

/-! ## Places are filled in order -/

/-- Wherever there is a right child there is a left one. -/
def Node.FilledInOrder (n : Node) : Prop :=
  ∀ op left r, branch op left (some r) ∈ n.subtrees → ∃ l, left = some l

namespace Node

theorem filledInOrder_leaf (literal : Operand) : (leaf literal).FilledInOrder := by
  intro op left r h
  rw [subtrees, List.mem_singleton] at h
  cases h

theorem mem_childSubtrees {c : Option Node} {n : Node} :
    n ∈ childSubtrees c ↔ ∃ m, c = some m ∧ n ∈ m.subtrees := by
  cases c with
  | none => simp [childSubtrees]
  | some m => simp [childSubtrees]

/-- A tree is filled in order if its root is, and both its children are. -/
theorem filledInOrder_branch {op : Option Operator} {left right : Option Node} :
    (branch op left right).FilledInOrder ↔
      (∀ r, right = some r → ∃ l, left = some l) ∧
        (∀ l, left = some l → l.FilledInOrder) ∧ ∀ r, right = some r → r.FilledInOrder := by
  constructor
  · intro h
    refine ⟨?_, ?_, ?_⟩
    · rintro r rfl
      exact h op left r (mem_subtrees_branch.mpr (.inl rfl))
    · rintro l rfl o left' r hmem
      exact h o left' r (mem_subtrees_branch.mpr (.inr (.inl hmem)))
    · rintro r rfl o left' r' hmem
      exact h o left' r' (mem_subtrees_branch.mpr (.inr (.inr hmem)))
  · rintro ⟨hhere, hl, hr⟩ o left' r' hmem
    rcases mem_subtrees_branch.mp hmem with heq | hmem | hmem
    · cases heq
      exact hhere r' rfl
    · obtain ⟨l, hleft, hmem⟩ := mem_childSubtrees.mp hmem
      exact hl l hleft o left' r' hmem
    · obtain ⟨r, hright, hmem⟩ := mem_childSubtrees.mp hmem
      exact hr r hright o left' r' hmem

theorem filledInOrder_empty : empty.FilledInOrder :=
  filledInOrder_branch.mpr ⟨nofun, nofun, nofun⟩

end Node

theorem Token.filledInOrder_operand {t : Token} {n : Node} (h : t.operand? = some n) :
    n.FilledInOrder := by
  cases t with
  | openGroup => cases h; exact Node.filledInOrder_empty
  | word w => cases h; exact Node.filledInOrder_leaf _
  | closeGroup => cases h
  | operator op => cases h

/-- The second place of a branch is filled only when the first one is. -/
theorem Node.Takes.filledInOrder {n m : Node} {t : Token} (h : n.Takes t m)
    (hn : n.FilledInOrder) : m.FilledInOrder := by
  cases h with
  | first op hx =>
      have hnew := Token.filledInOrder_operand hx
      exact filledInOrder_branch.mpr ⟨nofun, by rintro l ⟨⟩; exact hnew, nofun⟩
  | second op l hx =>
      have hnew := Token.filledInOrder_operand hx
      obtain ⟨-, hl, -⟩ := filledInOrder_branch.mp hn
      exact filledInOrder_branch.mpr ⟨fun _ _ => ⟨l, rfl⟩, hl, by rintro r ⟨⟩; exact hnew⟩
  | close => exact hn
  | join n ho =>
      refine filledInOrder_branch.mpr ⟨fun _ _ => ⟨n, rfl⟩, ?_, ?_⟩
      · rintro l ⟨⟩
        exact hn
      · rintro r ⟨⟩
        exact filledInOrder_empty
  | compare old left right ho => exact filledInOrder_branch.mpr (filledInOrder_branch.mp hn)

/-- The branches around the focus are filled in order whatever is in the focus. -/
theorem filledInOrder_enclose {m n : Node} (h : n.FilledInOrder → m.FilledInOrder)
    {frames : List Frame} (hn : (enclose frames n).FilledInOrder) :
    (enclose frames m).FilledInOrder := by
  induction frames generalizing m n with
  | nil => exact h hn
  | cons f frames ih =>
      refine ih (fun hf => ?_) hn
      cases f with
      | first op =>
          obtain ⟨-, hin, -⟩ := Node.filledInOrder_branch.mp hf
          exact Node.filledInOrder_branch.mpr ⟨nofun, by rintro l ⟨⟩; exact h (hin n rfl), nofun⟩
      | second op l =>
          obtain ⟨-, hl, hin⟩ := Node.filledInOrder_branch.mp hf
          exact Node.filledInOrder_branch.mpr
            ⟨fun _ _ => ⟨l, rfl⟩, hl, by rintro r ⟨⟩; exact h (hin n rfl)⟩

/-- **Preserved by every token.** -/
theorem Zipper.filledInOrder_feed {z z' : Zipper} {t : Token} (hz : z.tree.FilledInOrder)
    (h : z.feed t = .ok z') : z'.tree.FilledInOrder := by
  obtain ⟨m, hm, htree⟩ := takes_of_feed h
  rw [htree]
  exact filledInOrder_enclose hm.filledInOrder hz

theorem Zipper.filledInOrder_foldlM {ts : List Token} {z z' : Zipper}
    (hz : z.tree.FilledInOrder) (h : ts.foldlM Zipper.feed z = .ok z') :
    z'.tree.FilledInOrder := by
  induction ts generalizing z with
  | nil => cases h; exact hz
  | cons t ts ih =>
      obtain ⟨y, hy, hrest⟩ := foldlM_cons_eq_ok_iff.mp h
      exact ih (filledInOrder_feed hz hy) hrest

/-! ## What this says of parsing -/

/-- The places of a parsed condition are filled in order: the empty tree's are, with which reading
begins. -/
theorem filledInOrder_of_parse {text : String} {c : Condition} (h : Condition.parse text = .ok c) :
    c.root.FilledInOrder := by
  obtain ⟨z, hz, hroot⟩ := exists_read_of_parse h
  have hempty : Zipper.tree {} = .empty := rfl
  rw [hroot]
  exact Zipper.filledInOrder_foldlM (hempty ▸ Node.filledInOrder_empty) hz

/-- **No operand is lost, doubled or moved past another one.** The leaves of a parsed condition are
the literals of its words, in their order; none of them is a truth value, and no branch has a right
child without a left one. -/
theorem leaves_of_parse {text : String} {c : Condition} (h : Condition.parse text = .ok c) :
    c.root.leaves = (tokenize text).filterMap Token.literal? ∧
      (∀ b, Operand.bool b ∉ c.root.leaves) ∧
      ∀ op left r, Node.branch op left (some r) ∈ c.root.subtrees → ∃ l, left = some l := by
  obtain ⟨z, hz, hroot⟩ := exists_read_of_parse h
  have hleaves : c.root.leaves = (tokenize text).filterMap Token.literal? := by
    rw [hroot]
    exact Zipper.leaves_foldlM hz
  refine ⟨hleaves, fun b hb => ?_, filledInOrder_of_parse h⟩
  rw [hleaves] at hb
  obtain ⟨t, -, ht⟩ := List.mem_filterMap.mp hb
  cases t with
  | word w => exact Operand.ofWord_ne_bool w b (Option.some.inj ht)
  | openGroup => cases ht
  | closeGroup => cases ht
  | operator op => cases ht

/-- A closing parenthesis too many, and a group that stays open behind an operator. -/
theorem leaves_of_parse_unbalanced :
    ∃ c, Condition.parse ") 1 == (2 || %x" = .ok c ∧
      c.root.leaves = [.ofWord "1", .ofWord "2", .parameter "x"] ∧
      (∀ b, Operand.bool b ∉ c.root.leaves) ∧
      ∀ op left r, Node.branch op left (some r) ∈ c.root.subtrees → ∃ l, left = some l := by
  obtain ⟨c, hc⟩ := (exists_ok_iff (Condition.parse ") 1 == (2 || %x")).mpr (by decide +kernel)
  have hwords : (tokenize ") 1 == (2 || %x").filterMap Token.literal? =
      [.ofWord "1", .ofWord "2", .parameter "x"] := by decide +kernel
  obtain ⟨hleaves, hbool, horder⟩ := leaves_of_parse hc
  exact ⟨c, hc, hleaves.trans hwords, hbool, horder⟩

end Criterion
