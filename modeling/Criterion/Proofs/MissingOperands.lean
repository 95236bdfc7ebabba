import Criterion.Proofs.Leaves
import Criterion.Proofs.Ordering

/-!
# Orderings that lack an operand

The operands of a branch fill its left place first, wherever they stand: `> 5` and `5 >` are one tree. So
an ordering that lacks an operand lacks the right one, or both. With none it is null. With one it is
ordered by what a missing right operand counts as, the truth value false.

A truth value orders texts only, by its name. Of a decimal, or of anything else, such an ordering never
holds. Of a text it may: `zzz >` holds, since `zzz` comes after `false`.
-/

namespace Criterion

/-! ## Ordering by a truth value -/

namespace Operand

/-- Nothing but a text is ordered by false. -/
theorem unordered_false {a : Operand} (h : ∀ s, a ≠ text s) : a.Unordered (bool false) := by
  cases a with
  | text s => exact absurd rfl (h s)
  | decimal d => exact .number d (by decide)
  | null => exact .kind _ h (by simp)
  | parameter name => exact .kind _ h (by simp)
  | blank => exact .kind _ h (by simp)
  | bool b => exact .kind _ h (by simp)

end Operand

/-- A text is ordered by false as it is by the name of it. -/
theorem Operator.apply_text_false {op : Operator} (hop : op.isOrdering = true) (s : String) :
    op.apply (.text s) (.bool false) = op.relates s "false" := by
  have horder : (Operand.text s).order? (.bool false) = (Operand.text s).order? (.text "false") := rfl
  rw [apply_congr_order? hop horder, apply_text (isLogical_of_isOrdering hop)]

/-- By false an ordering holds of texts only. -/
theorem Operator.apply_false_iff {op : Operator} (hop : op.isOrdering = true) {a : Operand} :
    op.apply a (.bool false) = true ↔ ∃ s, a = .text s ∧ op.relates s "false" = true := by
  constructor
  · intro h
    by_cases htext : ∃ s, a = .text s
    · obtain ⟨s, rfl⟩ := htext
      rw [apply_text_false hop] at h
      exact ⟨s, rfl, h⟩
    · have hunordered := Operand.unordered_false (not_exists.mp htext)
      rw [hunordered.apply_eq_false (isOrdering_iff.mp hop)] at h
      cases h
  · rintro ⟨s, rfl, h⟩
    rw [apply_text_false hop, h]

/-! ## The branch of an ordering -/

/-- With one operand, an ordering has the truth value of ordering that operand by false. -/
theorem Node.evaluate_of_no_right (op : Operator) (l : Node) (context : Option Datum) :
    (branch (some op) (some l) none).evaluate context =
      .bool (op.apply (l.evaluate context) (.bool false)) := by
  rw [evaluate_eq_value, evaluate_eq_value, value]
  rfl

/-- Without a left operand a branch is null, whatever its operator. -/
theorem Node.evaluate_of_no_left (op : Option Operator) (right : Option Node)
    (context : Option Datum) : (branch op none right).evaluate context = .null := by
  rw [evaluate_eq_value, value]

/-- **An ordering that lacks an operand holds only of a text**, and of that just if it comes before or
after the name of the truth value false, as the ordering says. What is missing is the right operand, or
both, wherever the ordering stands in a parsed condition. With both missing it is null, and otherwise a
truth value. -/
theorem incomplete_ordering_holds_iff {text : String} {c : Condition}
    (hparse : Condition.parse text = .ok c) {op : Operator} (hop : op.isOrdering = true)
    {left right : Option Node} (hnode : Node.branch (some op) left right ∈ c.root.subtrees)
    (hmissing : left = none ∨ right = none) (context : Option Datum) :
    let node := Node.branch (some op) left right
    (node.evaluate context = .bool true ↔
        ∃ l s, left = some l ∧ l.evaluate context = .text s ∧ op.relates s "false" = true) ∧
      right = none ∧
      (left = none → node.evaluate context = .null) ∧
      ∀ l, left = some l → ∃ b, node.evaluate context = .bool b := by
  intro node
  have horder := filledInOrder_of_parse hparse
  have hright : right = none := by
    -- a branch that lacks the left operand lacks the right one too
    rcases hmissing with rfl | hright
    · cases right with
      | none => rfl
      | some r => cases horder (some op) none r hnode with | intro l hl => cases hl
    · exact hright
  subst hright
  cases left with
  | none =>
      have hnull : node.evaluate context = .null := Node.evaluate_of_no_left (some op) none context
      rw [hnull]
      refine ⟨⟨nofun, ?_⟩, rfl, fun _ => rfl, nofun⟩
      rintro ⟨l, s, hl, -⟩
      cases hl
  | some l =>
      have hvalue : node.evaluate context = .bool (op.apply (l.evaluate context) (.bool false)) :=
        Node.evaluate_of_no_right op l context
      refine ⟨?_, rfl, nofun, fun _ _ => ⟨_, hvalue⟩⟩
      rw [hvalue, Operand.bool.injEq, Operator.apply_false_iff hop]
      constructor
      · rintro ⟨s, hs, hholds⟩
        exact ⟨l, s, rfl, hs, hholds⟩
      · rintro ⟨l', s, hl, hs, hholds⟩
        cases hl
        exact ⟨s, hs, hholds⟩

/-- One ordering lacks its right operand, and one its left operand, which is to say its right one. A
text under `limit` comes after `false`; a number is not ordered. -/
theorem incomplete_ordering_holds_of_text :
    let limit := Node.branch (some .ge) (some (.leaf (.parameter "limit"))) none
    let five := Node.branch (some .le) (some (.leaf (.decimal (.ofInt 5)))) none
    let context := some (Datum.object [("limit", .text "max")])
    ∃ c, Condition.parse "%limit >= && (<= 5)" = .ok c ∧
      Operator.ge.isOrdering = true ∧ Operator.le.isOrdering = true ∧
      limit ∈ c.root.subtrees ∧ five ∈ c.root.subtrees ∧
      limit.evaluate context = .bool true ∧ five.evaluate context ≠ .bool true := by
  intro limit five context
  have htokens : tokenize "%limit >= && (<= 5)" =
      [.word "%limit", .operator .ge, .operator .and, .openGroup, .operator .le, .word "5",
        .closeGroup] := by decide +kernel
  let root := Node.branch (some .and) (some limit) (some (.branch none (some five) none))
  have hparse : Condition.parse "%limit >= && (<= 5)" = .ok ⟨root⟩ := by
    have hlimit : Operand.ofWord "%limit" = .parameter "limit" := by decide
    have hfive : Operand.ofWord "5" = .decimal (.ofInt 5) := Operand.ofWord_toString 5
    rw [parse_eq_ofTokens, htokens, ofTokens_eq]
    simp only [root, limit, five, ← hlimit, ← hfive]
    rfl
  have hlimit : limit ∈ root.subtrees := by
    simp [root, limit, five, Node.subtrees, Node.childSubtrees]
  have hfive : five ∈ root.subtrees := by
    simp [root, limit, five, Node.subtrees, Node.childSubtrees]
  refine ⟨_, hparse, rfl, rfl, hlimit, hfive, ?_, fun htrue => ?_⟩
  · exact (incomplete_ordering_holds_iff hparse rfl hlimit (.inr rfl) context).1.mpr
      ⟨_, "max", rfl, by decide +kernel, by decide⟩
  · obtain ⟨l, s, hl, hs, -⟩ :=
      (incomplete_ordering_holds_iff hparse rfl hfive (.inr rfl) context).1.mp htrue
    cases hl
    rw [Node.evaluate_eq_value] at hs
    cases hs

/-- The condition `zzz >` lacks its right operand and holds, in every context. -/
theorem incomplete_ordering_of_zzz :
    ∃ l, Condition.parse "zzz >" = .ok ⟨.branch (some .gt) (some l) none⟩ ∧
      ∀ context, (Node.branch (some .gt) (some l) none).evaluate context = .bool true ∧
        (Condition.mk (.branch (some .gt) (some l) none)).holds context = true := by
  have htokens : tokenize "zzz >" = [.word "zzz", .operator .gt] := by decide +kernel
  refine ⟨.leaf (.ofWord "zzz"), by rw [parse_eq_ofTokens, htokens, ofTokens_eq]; rfl, ?_⟩
  intro context
  have hword : Operand.ofWord "zzz" = .text "zzz" := by decide +kernel
  have hvalue : (Node.branch (some .gt) (some (.leaf (.ofWord "zzz"))) none).value context =
      .bool true := by
    have happly : Operator.gt.apply (.text "zzz") (.bool false) = true := by decide
    rw [hword]
    exact congrArg Operand.bool happly
  exact ⟨by rw [Node.evaluate_eq_value, hvalue], (Condition.holds_iff _ _).mpr hvalue⟩

end Criterion
