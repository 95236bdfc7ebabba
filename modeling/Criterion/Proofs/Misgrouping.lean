import Criterion.Proofs.Grouping

/-!
# When parentheses do not group

An expression that is not settled can be told from its tree. Where a logical operator is left open and
another one follows, the second takes hold of no more than the last part of the parentheses. With true
comparisons joined by `||` inside of them, and a false one joined to them by `&&`, the tree is true and
the expression is false. Around that place comparisons and operators can be chosen so that they pass
the difference on.
-/

namespace Criterion

/-! ## Expressions of one shape -/

mutual

/-- The same parentheses, whatever is compared and joined. -/
def Term.SameShape : Term → Term → Prop
  | .comparison _, .comparison _ => True
  | .group e, .group e' => e.SameShape e'
  | _, _ => False

/-- The same parentheses, and as many terms, whatever is compared and joined. -/
def Expression.SameShape : Expression → Expression → Prop
  | .single t, .single t' => t.SameShape t'
  | .joined t _ e, .joined t' _ e' => t.SameShape t' ∧ e.SameShape e'
  | _, _ => False

end

mutual

theorem Term.SameShape.agree {t t' : Term} (h : t.SameShape t') :
    t'.unclosed = t.unclosed ∧ t'.isSettled = t.isSettled := by
  cases t with
  | comparison c =>
      cases t' with
      | comparison c' => exact ⟨rfl, rfl⟩
      | group e' => exact h.elim
  | group e =>
      cases t' with
      | comparison c' => exact h.elim
      | group e' =>
          obtain ⟨hopen, hsettled⟩ := Expression.SameShape.agree h
          exact ⟨by rw [Term.unclosed, Term.unclosed, hopen], hsettled⟩

/-- The shape says what is left open, and whether an expression is settled. -/
theorem Expression.SameShape.agree {e e' : Expression} (h : e.SameShape e') :
    e'.unclosed = e.unclosed ∧ e'.isSettled = e.isSettled := by
  cases e with
  | single t =>
      cases e' with
      | single t' => exact Term.SameShape.agree h
      | joined t' op' e' => exact h.elim
  | joined t op e =>
      cases e' with
      | single t' => exact h.elim
      | joined t' op' e' =>
          obtain ⟨hopen, hsettled⟩ := Term.SameShape.agree h.1
          obtain ⟨hopen', hsettled'⟩ := Expression.SameShape.agree h.2
          refine ⟨?_, ?_⟩
          · rw [Expression.unclosed, Expression.unclosed, hopen, hopen']
          · rw [Expression.isSettled, Expression.isSettled, hopen, hsettled, hsettled']

end

/-! ## One truth value throughout -/

/-- The operator `&&`. -/
def Connective.and : Connective := ⟨.and, rfl⟩

/-- The operator `||`. -/
def Connective.or : Connective := ⟨.or, rfl⟩

/-- Two operands of one truth value have it together as well. -/
theorem Connective.apply_self (op : Connective) (b : Bool) :
    op.val.apply (.bool b) (.bool b) = b := by
  obtain ⟨op, h⟩ := op
  cases op with
  | and => cases b <;> rfl
  | or => cases b <;> rfl
  | _ => cases h

/-- A word to compare. -/
def Word.one : Word where
  chars := ['1']
  isWord := ⟨by decide, fun c hc => by rw [List.mem_singleton.mp hc]; rfl, by decide⟩

/-- A comparison that is true, or one that is false. -/
def Comparison.ofBool (b : Bool) : Comparison :=
  .relation .one (if b then ⟨.eq, rfl⟩ else ⟨.ne, rfl⟩) .one

theorem Comparison.value_ofBool (b : Bool) : (ofBool b).value none = .bool b := by
  cases b <;> decide +kernel

mutual

/-- The term with all comparisons of one truth value, and one operator to join them. -/
def Term.fill (b : Bool) (op : Connective) : Term → Term
  | .comparison _ => .comparison (.ofBool b)
  | .group e => .group (e.fill b op)

/-- The expression with all comparisons of one truth value, and one operator to join them. -/
def Expression.fill (b : Bool) (op : Connective) : Expression → Expression
  | .single t => .single (t.fill b op)
  | .joined t _ e => .joined (t.fill b op) op (e.fill b op)

end

mutual

theorem Term.sameShape_fill (b : Bool) (op : Connective) (t : Term) :
    t.SameShape (t.fill b op) := by
  cases t with
  | comparison c => trivial
  | group e => exact e.sameShape_fill b op

theorem Expression.sameShape_fill (b : Bool) (op : Connective) (e : Expression) :
    e.SameShape (e.fill b op) := by
  cases e with
  | single t => exact t.sameShape_fill b op
  | joined t _ e => exact ⟨t.sameShape_fill b op, e.sameShape_fill b op⟩

end

mutual

theorem Term.value_fill (b : Bool) (op : Connective) (t : Term) :
    (t.fill b op).value none = .bool b := by
  cases t with
  | comparison c => exact Comparison.value_ofBool b
  | group e => exact e.value_fill b op

/-- Filled with a truth value, an expression has it. -/
theorem Expression.value_fill (b : Bool) (op : Connective) (e : Expression) :
    (e.fill b op).value none = .bool b := by
  cases e with
  | single t => exact t.value_fill b op
  | joined t _ e =>
      rw [Expression.fill, Expression.value, t.value_fill b op, e.value_fill b op, op.apply_self]

end

/-- A branch that parentheses have made, or an operator that joins a truth value to the focus. -/
def Frame.IsFilled (b : Bool) (op : Connective) (f : Frame) : Prop :=
  f = .first none ∨ ∃ left, f = .second (some op.val) left ∧ left.value none = .bool b

/-- A focus with a truth value, and the same one to the left of it all the way up. -/
structure Zipper.IsFilled (b : Bool) (op : Connective) (z : Zipper) : Prop where
  node : z.node.value none = .bool b
  frames : ∀ f ∈ z.frames, f.IsFilled b op

/-- A truth value that the operator lets through passes a filled branch. -/
theorem Frame.IsFilled.value_around {b : Bool} {op : Connective} {f : Frame} (hf : f.IsFilled b op)
    {x : Bool} (hx : op.val.apply (.bool b) (.bool x) = x) {n : Node} (hn : n.value none = .bool x) :
    (f.around n).value none = .bool x := by
  rcases hf with rfl | ⟨left, rfl, hleft⟩
  · rw [Frame.value_around_group, hn]
  · rw [Frame.around, Node.value_branch, hleft, hn, hx]

/-- It passes any number of them. -/
theorem value_enclose_filled {b : Bool} {op : Connective} {frames : List Frame}
    (hf : ∀ f ∈ frames, f.IsFilled b op) {x : Bool} (hx : op.val.apply (.bool b) (.bool x) = x)
    {n : Node} (hn : n.value none = .bool x) : (enclose frames n).value none = .bool x := by
  induction frames generalizing n with
  | nil => exact hn
  | cons f frames ih =>
      rw [enclose_cons]
      exact ih (fun g hg => hf g (List.mem_cons_of_mem _ hg))
        ((hf f List.mem_cons_self).value_around hx hn)

theorem Zipper.closeGroup_node {z : Zipper} {f : Frame} {frames : List Frame}
    (h : z.frames = f :: frames) : z.closeGroup.node = f.around z.node := by
  obtain ⟨op, operands, _⟩ := z
  obtain rfl := h
  cases f <;> rfl

/-- The branch that becomes the focus has the truth value too. -/
theorem Zipper.IsFilled.closeGroup {b : Bool} {op : Connective} {z : Zipper}
    (h : z.IsFilled b op) : z.closeGroup.IsFilled b op := by
  refine ⟨?_, fun f hf => h.frames f ?_⟩
  · cases hz : z.frames with
    | nil =>
        rw [Zipper.closeGroup, hz]
        exact h.node
    | cons f frames =>
        have hf : f.IsFilled b op := h.frames f (by rw [hz]; exact List.mem_cons_self)
        rw [Zipper.closeGroup_node hz]
        exact hf.value_around (op.apply_self b) h.node
  · rw [Zipper.closeGroup_frames] at hf
    exact List.mem_of_mem_tail hf

theorem Zipper.IsFilled.under {b : Bool} {op : Connective} {z : Zipper} (h : z.IsFilled b op)
    {frames : List Frame} (hf : ∀ f ∈ frames, f.IsFilled b op) : (z.under frames).IsFilled b op := by
  refine ⟨h.node, fun f hmem => ?_⟩
  rcases List.mem_append.mp hmem with hmem | hmem
  · exact h.frames f hmem
  · exact hf f hmem

mutual

theorem Term.isFilled (b : Bool) (op : Connective) (t : Term) :
    (t.fill b op).zipper.IsFilled b op := by
  cases t with
  | comparison c =>
      refine ⟨?_, nofun⟩
      rw [← Comparison.value_ofBool b, ← Comparison.value_tree]
      rfl
  | group e =>
      refine ((e.isFilled b op).under fun f hf => ?_).closeGroup
      exact .inl (List.mem_singleton.mp hf)

theorem Expression.isFilled (b : Bool) (op : Connective) (e : Expression) :
    (e.fill b op).zipper.IsFilled b op := by
  cases e with
  | single t => exact t.isFilled b op
  | joined t _ e =>
      have ht := t.isFilled b op
      -- the focus of the first term is to the left of the operator, with its truth value
      refine (e.isFilled b op).under fun f hf => ?_
      rcases List.mem_cons.mp hf with rfl | hf
      · exact .inr ⟨_, rfl, ht.node⟩
      · exact ht.frames f hf

end

theorem Zipper.IsFilled.value_tree {b : Bool} {op : Connective} {z : Zipper} (h : z.IsFilled b op) :
    z.tree.value none = .bool b := value_enclose_filled h.frames (op.apply_self b) h.node

/-! ## One truth value against another -/

/-- A tree that has a truth value, as its focus has, but not the one it should have. -/
structure Zipper.Contradicts (z : Zipper) (value : Operand) : Prop where
  node : ∃ b : Bool, z.node.value none = .bool b
  tree : ∃ b : Bool, z.tree.value none = .bool b ∧ value = .bool !b

/-- Both parentheses and logical operators pass on some truth value. -/
theorem Frame.value_around_opening {f : Frame} {o : Opening} (hf : f.opening? = some o) {n : Node}
    (hn : ∃ b : Bool, n.value none = .bool b) : ∃ b : Bool, (f.around n).value none = .bool b := by
  cases o with
  | group =>
      obtain rfl := Frame.eq_of_opening?_group hf
      rw [Frame.value_around_group]
      exact hn
  | operator =>
      obtain ⟨op, left, rfl⟩ := Frame.eq_of_opening?_operator hf
      rw [Frame.around, Node.value_branch]
      exact ⟨_, rfl⟩

theorem value_around_congr {m n : Node} (h : m.value none = n.value none) (f : Frame) :
    (f.around m).value none = (f.around n).value none := by
  cases f with
  | first op => rw [Frame.around, Frame.around, Node.value, Node.value, h]
  | second op left => rw [Frame.around, Frame.around, Node.value, Node.value, h]

theorem value_enclose_congr {m n : Node} (h : m.value none = n.value none) (frames : List Frame) :
    (enclose frames m).value none = (enclose frames n).value none := by
  induction frames generalizing m n with
  | nil => exact h
  | cons f frames ih => exact ih (value_around_congr h f)

/-- One `||` with true to its left makes everything inside of it of no account. -/
theorem value_enclose_or {frames : List Frame} (hf : ∀ f ∈ frames, f.IsFilled true .or)
    (hor : ∃ f ∈ frames, f.opening? = some .operator) {n : Node} {x : Bool}
    (hn : n.value none = .bool x) : (enclose frames n).value none = .bool true := by
  induction frames generalizing n x with
  | nil =>
      obtain ⟨f, hmem, -⟩ := hor
      cases hmem
  | cons f frames ih =>
      have htail : ∀ g ∈ frames, g.IsFilled true .or := fun g hg => hf g (List.mem_cons_of_mem _ hg)
      rw [enclose_cons]
      rcases hf f List.mem_cons_self with rfl | ⟨left, rfl, hleft⟩
      · -- parentheses change no value: the `||` is further out
        refine ih htail ?_ (x := x) (by rw [Frame.value_around_group, hn])
        obtain ⟨g, hmem, hg⟩ := hor
        rcases List.mem_cons.mp hmem with rfl | hmem
        · cases hg
        · exact ⟨g, hmem, hg⟩
      · refine value_enclose_filled htail rfl ?_
        rw [Frame.around, Node.value_branch, hleft, hn]
        rfl

theorem Term.contradicts_group {e : Expression} (h : e.zipper.Contradicts (e.value none)) :
    (Term.group e).zipper.Contradicts ((Term.group e).value none) := by
  refine ⟨?_, ?_⟩
  · rw [Term.zipper]
    cases hz : e.zipper.frames with
    | nil =>
        -- nothing else is open: the group's own branch becomes the focus
        have hframes : (e.zipper.under [.first none]).frames = .first none :: [] := by
          rw [Zipper.under_frames, hz, List.nil_append]
        rw [Zipper.closeGroup_node hframes]
        exact Frame.value_around_opening (o := .group) rfl h.node
    | cons f frames =>
        -- the focus comes back to a branch inside of the group
        have hframes : (e.zipper.under [.first none]).frames = f :: (frames ++ [.first none]) := by
          rw [Zipper.under_frames, hz, List.cons_append]
        obtain ⟨o, -, ho⟩ := exists_opening e.map_opening? (hz ▸ List.mem_cons_self)
        rw [Zipper.closeGroup_node hframes]
        exact Frame.value_around_opening ho h.node
  · rw [Term.value_tree_group]
    exact h.tree

/-- What comes last is all that counts when everything before it is true and joined by `&&`. -/
theorem Expression.contradicts_joined_right {e : Expression}
    (h : e.zipper.Contradicts (e.value none)) (t : Term) :
    (Expression.joined (t.fill true .and) .and e).zipper.Contradicts
      ((Expression.joined (t.fill true .and) .and e).value none) := by
  have ht := t.isFilled true .and
  obtain ⟨b, htree, hvalue⟩ := h.tree
  have hand : ∀ x : Bool, Operator.and.apply (.bool true) (.bool x) = x := by decide
  refine ⟨h.node, b, ?_, ?_⟩
  · rw [Expression.tree_joined]
    refine value_enclose_filled ht.frames (hand b) ?_
    rw [Node.value_branch, ht.node, htree]
    exact congrArg Operand.bool (hand b)
  · rw [Expression.value, t.value_fill, hvalue]
    exact congrArg Operand.bool (hand !b)

/-- What comes first is all that counts when everything after it is true and joined by `&&`. -/
theorem Expression.contradicts_joined_left {t : Term} (h : t.zipper.Contradicts (t.value none))
    (e : Expression) :
    (Expression.joined t .and (e.fill true .and)).zipper.Contradicts
      ((Expression.joined t .and (e.fill true .and)).value none) := by
  have he := e.isFilled true .and
  obtain ⟨c, hnode⟩ := h.node
  obtain ⟨b, htree, hvalue⟩ := h.tree
  have hand : ∀ x : Bool, Operator.and.apply (.bool x) (.bool true) = x := by decide
  refine ⟨⟨true, he.node⟩, b, ?_, ?_⟩
  · have hbranch : (Node.branch (some .and) (some t.zipper.node)
        (some (e.fill true .and).zipper.tree)).value none = t.zipper.node.value none := by
      rw [Node.value_branch, hnode, he.value_tree]
      exact congrArg Operand.bool (hand c)
    rw [Expression.tree_joined]
    exact (value_enclose_congr hbranch t.zipper.frames).trans htree
  · rw [Expression.value, e.value_fill, hvalue]
    exact congrArg Operand.bool (hand !b)

/-- An operator that follows one left open takes hold of the wrong part. -/
theorem Expression.contradicts_joined_open {t : Term} (h : .operator ∈ t.unclosed)
    (e : Expression) :
    (Expression.joined (t.fill true .or) .and (e.fill false .and)).zipper.Contradicts
      ((Expression.joined (t.fill true .or) .and (e.fill false .and)).value none) := by
  have ht := t.isFilled true .or
  have he := e.isFilled false .and
  refine ⟨⟨false, he.node⟩, true, ?_, ?_⟩
  · -- the `&&` ends up inside of the `||` that was left open
    have hor : ∃ f ∈ (t.fill true .or).zipper.frames, f.opening? = some .operator := by
      rw [← (t.sameShape_fill true .or).agree.1] at h
      have hmem := List.mem_map_of_mem (f := some) h
      rw [← Term.map_opening?] at hmem
      obtain ⟨f, hf, heq⟩ := List.mem_map.mp hmem
      exact ⟨f, hf, heq⟩
    rw [Expression.tree_joined]
    refine value_enclose_or ht.frames hor ?_ (x := false)
    rw [Node.value_branch, ht.node, he.value_tree]
    rfl
  · rw [Expression.value, t.value_fill, e.value_fill]
    rfl

mutual

theorem Term.exists_contradicts {t : Term} (h : t.isSettled = false) :
    ∃ t' : Term, t.SameShape t' ∧ t'.zipper.Contradicts (t'.value none) := by
  cases t with
  | comparison c => cases h
  | group e =>
      obtain ⟨e', hshape, he⟩ := Expression.exists_contradicts h
      exact ⟨.group e', hshape, Term.contradicts_group he⟩

/-- **Every shape that is not settled has an expression with the wrong value.** -/
theorem Expression.exists_contradicts {e : Expression} (h : e.isSettled = false) :
    ∃ e' : Expression, e.SameShape e' ∧ e'.zipper.Contradicts (e'.value none) := by
  cases e with
  | single t =>
      obtain ⟨t', hshape, ht⟩ := Term.exists_contradicts h
      exact ⟨.single t', hshape, ht⟩
  | joined t op e =>
      by_cases hopen : .operator ∈ t.unclosed
      · -- here it goes wrong: the operator follows one that is left open
        exact ⟨.joined (t.fill true .or) .and (e.fill false .and),
          ⟨t.sameShape_fill true .or, e.sameShape_fill false .and⟩,
          Expression.contradicts_joined_open hopen e⟩
      cases ht : t.isSettled with
      | false =>
          -- it goes wrong in the first term, and nothing behind it makes up for that
          obtain ⟨t', hshape, ht'⟩ := Term.exists_contradicts ht
          exact ⟨.joined t' .and (e.fill true .and), ⟨hshape, e.sameShape_fill true .and⟩,
            Expression.contradicts_joined_left ht' e⟩
      | true =>
          have he : e.isSettled = false := by
            simpa [Expression.isSettled, hopen, ht] using h
          -- it goes wrong behind, and the first term makes no difference
          obtain ⟨e', hshape, he'⟩ := Expression.exists_contradicts he
          exact ⟨.joined (t.fill true .and) .and e', ⟨t.sameShape_fill true .and, hshape⟩,
            Expression.contradicts_joined_right he' t⟩

end

/-! ## The grouping law -/

/-- However the expression is written, its tree has its value in every context and without one. -/
def Expression.GroupsAsWritten (e : Expression) : Prop :=
  ∀ (text : String) (context : Option Datum), tokenize text = e.tokens →
    (Condition.parse text).map (fun c => c.root.evaluate context) = .ok (e.value context)

theorem Expression.groupsAsWritten_of_isSettled {e : Expression} (h : e.isSettled = true) :
    e.GroupsAsWritten := by
  intro text context htext
  rw [parse_of_tokenize htext, ← Expression.value_tree h, ← Node.evaluate_eq_value]
  rfl

theorem Expression.not_groupsAsWritten {e : Expression} (h : e.zipper.Contradicts (e.value none)) :
    ¬ e.GroupsAsWritten := by
  intro hlaw
  obtain ⟨b, htree, hvalue⟩ := h.tree
  have heval := hlaw e.text none e.tokenize_text
  rw [parse_of_tokenize e.tokenize_text, hvalue] at heval
  have hboth : Operand.bool b = .bool !b := by
    rw [← htree, ← Node.evaluate_eq_value]
    exact Except.ok.inj heval
  cases b <;> cases hboth

/-- **When parsing groups as the parentheses say.** Every expression can be written and parses. All
expressions of a shape are grouped as they are written just if no logical operator is left open by
parentheses that another one follows. -/
theorem groupsAsWritten_iff (e : Expression) :
    (∃ text, tokenize text = e.tokens) ∧
      (∀ text, tokenize text = e.tokens → ∃ c, Condition.parse text = .ok c) ∧
      ((∀ e' : Expression, e.SameShape e' → e'.GroupsAsWritten) ↔ e.isSettled = true) := by
  refine ⟨⟨e.text, e.tokenize_text⟩, fun text h => ⟨_, parse_of_tokenize h⟩, fun h => ?_, ?_⟩
  · cases hs : e.isSettled with
    | true => rfl
    | false =>
        obtain ⟨e', hshape, hc⟩ := Expression.exists_contradicts hs
        exact absurd (h e' hshape) (Expression.not_groupsAsWritten hc)
  · intro hs e' hshape
    refine Expression.groupsAsWritten_of_isSettled ?_
    rw [hshape.agree.2, hs]

/-- The condition `(1 == 1 || 1 == 1) && 1 != 1`. -/
def Expression.twoInParentheses : Expression :=
  .joined (.group (.joined (.comparison (.ofBool true)) .or
    (.single (.comparison (.ofBool true))))) .and (.single (.comparison (.ofBool false)))

/-- The condition `(1 == 1 || 1 == 1 || 1 == 1) && 1 != 1`. -/
def Expression.threeInParentheses : Expression :=
  .joined (.group (.joined (.comparison (.ofBool true)) .or
    (.joined (.comparison (.ofBool true)) .or (.single (.comparison (.ofBool true)))))) .and
      (.single (.comparison (.ofBool false)))

/-- Two terms in parentheses leave nothing but the parentheses open. -/
theorem groups_two_in_parentheses :
    Expression.twoInParentheses.isSettled = true ∧ Expression.twoInParentheses.GroupsAsWritten := by
  have hsettled : Expression.twoInParentheses.isSettled = true := by decide
  exact ⟨hsettled, (groupsAsWritten_iff .twoInParentheses).2.2.mpr hsettled .twoInParentheses
    ⟨⟨trivial, trivial⟩, trivial⟩⟩

/-- Three terms in parentheses leave a logical operator open: the condition is false, and holds. -/
theorem misgroups_three_in_parentheses :
    tokenize "(1 == 1 || 1 == 1 || 1 == 1) && 1 != 1" = Expression.threeInParentheses.tokens ∧
      Expression.threeInParentheses.value none = .bool false ∧
      (Condition.parse "(1 == 1 || 1 == 1 || 1 == 1) && 1 != 1").map
        (fun c => c.root.evaluate none) = .ok (.bool true) ∧
      ¬ Expression.threeInParentheses.GroupsAsWritten := by
  have htokens : tokenize "(1 == 1 || 1 == 1 || 1 == 1) && 1 != 1" =
      Expression.threeInParentheses.tokens := by decide +kernel
  have hvalue : Expression.threeInParentheses.value none = .bool false := by decide +kernel
  have hparsed : (Condition.parse "(1 == 1 || 1 == 1 || 1 == 1) && 1 != 1").map
      (fun c => c.root.evaluate none) = .ok (.bool true) := by
    rw [parse_of_tokenize htokens]
    exact congrArg Except.ok (by decide +kernel)
  refine ⟨htokens, hvalue, hparsed, fun hlaw => ?_⟩
  have hwrong := hlaw _ none htokens
  rw [hparsed, hvalue] at hwrong
  cases hwrong

end Criterion
