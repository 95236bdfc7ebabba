import Criterion.Proofs.Equality
import Criterion.Proofs.Ordering

/-!
# What the scale of a decimal changes

A number can be written with more decimals or fewer. Equality, the logical operators and the orderings of
decimals look at the number alone. A decimal is taken as it is written in one place only: on the right of
an ordering whose left operand is a text. So two trees that are the same up to the scales of their
decimals have the same value, up to scales again, if the evaluation of one of them comes to no such
ordering.

The other way round, with the decimal on the left, a text is read as the number that it writes. There
the text of a decimal does as well as the decimal itself.
-/

namespace Criterion

/-! ## Operands that are the same up to numbers -/

namespace Operand

theorem eq_blank_of_same {a : Operand} (h : blank.same a = true) : a = blank := by
  rcases same_iff.mp h with heq | ⟨d, e, heq, -, -⟩
  · exact heq.symm
  · cases heq

theorem eq_bool_of_same {a : Operand} {b : Bool} (h : (bool b).same a = true) : a = bool b := by
  rcases same_iff.mp h with heq | ⟨d, e, heq, -, -⟩
  · exact heq.symm
  · cases heq

theorem resolve_same {a b : Operand} (h : a.same b = true) (context : Option Datum) :
    (a.resolve context).same (b.resolve context) = true := by
  rcases same_iff.mp h with rfl | ⟨d, e, rfl, rfl, -⟩
  · exact same_refl _
  · exact h

/-- Equality goes over to operands that are the same, whether it is that of blanks or of numbers. -/
theorem equals_of_same {a b a' b' : Operand} (ha : a.same a' = true) (hb : b.same b' = true)
    (h : a.equals b = true) : a'.equals b' = true := by
  rcases equals_iff.mp h with ⟨rfl, hblank⟩ | ⟨rfl, hblank⟩ | hsame
  · exact equals_iff.mpr (.inl ⟨eq_blank_of_same ha, by rw [← isBlank_eq_of_same hb, hblank]⟩)
  · exact equals_iff.mpr
      (.inr (.inl ⟨eq_blank_of_same hb, by rw [← isBlank_eq_of_same ha, hblank]⟩))
  · exact equals_iff.mpr (.inr (.inr (same_trans (same_symm ha) (same_trans hsame hb))))

theorem equals_congr {a b a' b' : Operand} (ha : a.same a' = true) (hb : b.same b' = true) :
    a.equals b = a'.equals b' :=
  Bool.eq_iff_iff.mpr ⟨equals_of_same ha hb, equals_of_same (same_symm ha) (same_symm hb)⟩

/-- Only truth values can be joined, and these have no scale. -/
theorem joinTruth_congr (join : Bool → Bool → Bool) {a b a' b' : Operand}
    (ha : a.same a' = true) (hb : b.same b' = true) :
    joinTruth join a b = joinTruth join a' b' := by
  rcases same_iff.mp ha with rfl | ⟨d, e, rfl, rfl, -⟩
  · rcases same_iff.mp hb with rfl | ⟨d, e, rfl, rfl, -⟩
    · rfl
    · cases a <;> rfl
  · rfl

end Operand

theorem Decimal.order_congr {d e : Decimal} (h : d.value = e.value) : d.order = e.order := by
  funext c
  rw [order_eq_compare, order_eq_compare, h]

theorem Decimal.order_congr_right {d e : Decimal} (h : d.value = e.value) (c : Decimal) :
    c.order d = c.order e := by
  rw [order_eq_compare, order_eq_compare, h]

namespace Operand

/-- The pair whose order depends on how a number is written. -/
def ShowsScale (a b : Operand) : Prop := (∃ s, a = text s) ∧ ∃ d, b = decimal d

/-- What an operand is ordered by may be written otherwise, if that is not shown to a text. -/
theorem order?_congr_right {a b b' : Operand} (h : ¬a.ShowsScale b) (hb : b.same b' = true) :
    a.order? b = a.order? b' := by
  rcases same_iff.mp hb with rfl | ⟨d, e, rfl, rfl, hvalue⟩
  · rfl
  · -- a text would see how the decimal is written
    cases a with
    | text s => exact absurd ⟨⟨s, rfl⟩, d, rfl⟩ h
    | decimal c => exact congrArg some (Decimal.order_congr_right hvalue c)
    | null => rfl
    | parameter name => rfl
    | blank => rfl
    | bool b => rfl

/-- To be ordered, a decimal counts as the number that it denotes. -/
theorem order?_congr_left {a a' : Operand} (ha : a.same a' = true) (b : Operand) :
    a.order? b = a'.order? b := by
  rcases same_iff.mp ha with rfl | ⟨d, e, rfl, rfl, hvalue⟩
  · rfl
  · by_cases hnull : b = null
    · rw [hnull]
      rfl
    · rw [order?_decimal hnull, order?_decimal hnull, Decimal.order_congr hvalue]

end Operand

/-- **An operator says the same of operands that are the same**, unless it is an ordering that shows a
decimal to a text. -/
theorem Operator.apply_congr_same {op : Operator} {a b a' b' : Operand} (ha : a.same a' = true)
    (hb : b.same b' = true) (h : op.isOrdering = true → ¬a.ShowsScale b) :
    op.apply a b = op.apply a' b' := by
  cases hop : op.isOrdering with
  | true =>
      refine apply_congr_order? hop ?_
      rw [Operand.order?_congr_right (h hop) hb, Operand.order?_congr_left ha]
  | false =>
      cases op with
      | eq => exact Operand.equals_congr ha hb
      | ne => exact congrArg not (Operand.equals_congr ha hb)
      | and => exact Operand.joinTruth_congr _ ha hb
      | or => exact Operand.joinTruth_congr _ ha hb
      | _ => cases hop

/-! ## Trees that are the same up to numbers -/

namespace Node

theorem same_leaf_iff {a : Operand} {n : Node} :
    (leaf a).same n = true ↔ ∃ b, n = leaf b ∧ a.same b = true := by
  cases n with
  | leaf b => simp [same]
  | branch op left right => simp [same]

/-- Only a branch with the same operator is the same, with children that are the same. -/
theorem same_branch_iff {op : Option Operator} {left right : Option Node} {n : Node} :
    (branch op left right).same n = true ↔ ∃ left' right', n = branch op left' right' ∧
      sameChild left left' = true ∧ sameChild right right' = true := by
  cases n with
  | leaf b => simp [same]
  | branch op' left' right' =>
      simp only [same, Bool.and_eq_true, beq_iff_eq, branch.injEq]
      constructor
      · rintro ⟨⟨rfl, hleft⟩, hright⟩
        exact ⟨left', right', ⟨rfl, rfl, rfl⟩, hleft, hright⟩
      · rintro ⟨l, r, ⟨rfl, rfl, rfl⟩, hleft, hright⟩
        exact ⟨⟨rfl, hleft⟩, hright⟩

theorem sameChild_none_iff {c : Option Node} : sameChild none c = true ↔ c = none := by
  cases c <;> simp [sameChild]

theorem sameChild_some_iff {n : Node} {c : Option Node} :
    sameChild (some n) c = true ↔ ∃ m, c = some m ∧ n.same m = true := by
  cases c <;> simp [sameChild]

/-- `t.Visits n`: an evaluation of `t` comes to the node `n`. It comes to all nodes but those to the
right of a missing left child. -/
inductive Visits : Node → Node → Prop where
  | here (n : Node) : Visits n n
  | left {op : Option Operator} {l n : Node} (right : Option Node) :
      Visits l n → Visits (branch op (some l) right) n
  | right {op : Option Operator} {r n : Node} (l : Node) :
      Visits r n → Visits (branch op (some l) (some r)) n

/-- An ordering whose left operand is a text, and whose right operand is a decimal. -/
def OrdersByWriting (context : Option Datum) (n : Node) : Prop :=
  ∃ op l r, n = branch (some op) (some l) (some r) ∧ op.isOrdering = true ∧
    (l.evaluate context).ShowsScale (r.evaluate context)

/-- Operators give the same truth value, and without one the left operand is passed on. -/
theorem combine_same {op : Option Operator} {a b a' b' : Operand} (ha : a.same a' = true)
    (hb : b.same b' = true) (h : ∀ o, op = some o → o.isOrdering = true → ¬a.ShowsScale b) :
    (combine op a b).same (combine op a' b') = true := by
  cases op with
  | none => exact ha
  | some o =>
      rw [combine, combine, Operator.apply_congr_same ha hb (h o rfl)]
      exact Operand.same_refl _

/-- Trees that are the same have the same value. -/
theorem value_same {context : Option Datum} {t u : Node} (htu : t.same u = true)
    (hvisits : ∀ n, t.Visits n → ¬n.OrdersByWriting context) :
    (t.value context).same (u.value context) = true := by
  induction t generalizing u with
  | leaf a =>
      obtain ⟨b, rfl, hab⟩ := same_leaf_iff.mp htu
      rw [value, value]
      exact Operand.resolve_same hab context
  | branch op left right ihl ihr =>
      obtain ⟨left', right', rfl, hleft, hright⟩ := same_branch_iff.mp htu
      cases left with
      | none =>
          obtain rfl := sameChild_none_iff.mp hleft
          rw [value, value]
          exact Operand.same_refl _
      | some l =>
          obtain ⟨l', rfl, hl⟩ := sameChild_some_iff.mp hleft
          have hlvalue := ihl l rfl hl fun n hn => hvisits n (.left right hn)
          cases right with
          | none =>
              -- what a missing operand counts as is no decimal
              obtain rfl := sameChild_none_iff.mp hright
              rw [value, value]
              refine combine_same hlvalue (Operand.same_refl _) fun o _ _ hshows => ?_
              obtain ⟨-, d, hd⟩ := hshows
              cases hd
          | some r =>
              obtain ⟨r', rfl, hr⟩ := sameChild_some_iff.mp hright
              have hrvalue := ihr r rfl hr fun n hn => hvisits n (.right l hn)
              rw [value, value]
              refine combine_same hlvalue hrvalue fun o ho hop hshows => ?_
              subst ho
              -- such an ordering is one that the evaluation comes to
              refine hvisits _ (.here _) ⟨o, l, r, rfl, hop, ?_⟩
              rw [evaluate_eq_value, evaluate_eq_value]
              exact hshows

end Node

/-- Conditions whose values are the same hold both or neither. -/
theorem Condition.holds_eq_of_same {t u : Node} {context : Option Datum}
    (h : (t.value context).same (u.value context) = true) :
    (Condition.mk t).holds context = (Condition.mk u).holds context := by
  rw [Bool.eq_iff_iff, holds_iff, holds_iff]
  show t.value context = .bool true ↔ u.value context = .bool true
  constructor
  · intro htrue
    rw [htrue] at h
    exact Operand.eq_bool_of_same h
  · intro htrue
    rw [htrue] at h
    exact Operand.eq_bool_of_same (Operand.same_symm h)

/-- **Scales make no difference**: trees of one shape, with the same literals up to the scales of
decimals, have the same value up to scales, and hold both or neither, if the evaluation of the first
comes to no ordering of a text by a decimal. -/
theorem evaluate_of_other_scales {t u : Node} (htu : t.same u = true) {context : Option Datum}
    (hvisits : ∀ n, t.Visits n → ¬n.OrdersByWriting context) :
    (t.evaluate context).same (u.evaluate context) = true ∧
      (Condition.mk t).holds context = (Condition.mk u).holds context := by
  have hvalue := Node.value_same htu hvisits
  rw [Node.evaluate_eq_value, Node.evaluate_eq_value]
  exact ⟨hvalue, Condition.holds_eq_of_same hvalue⟩

/-- A text and two ways to write a number, where the text stands on the right of an ordering, and the
number on the right of `!=`. -/
theorem evaluate_of_other_scales_around_text :
    let tree (v w : String) := Node.branch (some .and)
      (some (.branch (some .le) (some (.leaf (.ofWord v))) (some (.leaf (.parameter "x")))))
      (some (.branch (some .ne) (some (.leaf (.parameter "x"))) (some (.leaf (.ofWord w)))))
    let t := tree "1.50" "2.000"
    let u := tree "1.5" "2"
    let context := some (Datum.object [("x", .text "1.5")])
    t.same u = true ∧ (∀ n, t.Visits n → ¬n.OrdersByWriting context) ∧
      (t.evaluate context).same (u.evaluate context) = true ∧
      (Condition.mk t).holds context = (Condition.mk u).holds context := by
  intro tree t u context
  have hsame : t.same u = true := by decide +kernel
  have hvisits : ∀ n, t.Visits n → ¬n.OrdersByWriting context := by
    rintro n hn ⟨op, l, r, rfl, hop, ⟨s, hs⟩, d, hd⟩
    rw [Node.evaluate_eq_value] at hs
    simp only [t, tree] at hn
    cases hn with
    | here => cases hop
    | left _ hn =>
        cases hn with
        | here =>
            -- the only ordering has a number on its left
            have hword : Operand.ofWord "1.50" = .decimal { coefficient := 150, scale := 2 } := by
              decide +kernel
            rw [Node.value, hword] at hs
            cases hs
        | left _ hn => cases hn
        | right _ hn => cases hn
    | right _ hn =>
        cases hn with
        | here => cases hop
        | left _ hn => cases hn
        | right _ hn => cases hn
  exact ⟨hsame, hvisits, evaluate_of_other_scales hsame hvisits⟩

/-- A text on the left of an ordering tells `1` from `1.0`. -/
example :
    (Node.branch (some .ge) (some (.leaf (.text "1")))
        (some (.leaf (.decimal { coefficient := 1, scale := 0 })))).evaluate none = .bool true ∧
      (Node.branch (some .ge) (some (.leaf (.text "1")))
        (some (.leaf (.decimal { coefficient := 10, scale := 1 })))).evaluate none =
          .bool false := by
  decide +kernel

/-! ## The text of a decimal -/

/-- A decimal is ordered by the text of another one as by that decimal itself. -/
theorem Operand.order?_decimal_toText (d e : Decimal) :
    (decimal d).order? (text (decimal e).toText) = (decimal d).order? (decimal e) := by
  obtain ⟨e', hread, hvalue⟩ := Decimal.exists_ofText?_toText e
  show (Decimal.ofText? e.toText).map d.order = some (d.order e)
  rw [hread, Option.map_some, Decimal.order_congr_right hvalue]

/-- **With a decimal on the left, an ordering says the same of a decimal and of its text**, namely what it
says of the two numbers. -/
theorem decimal_orders_number_and_text {op : Operator} (hop : op.isOrdering = true) (d e : Decimal) :
    op.apply (.decimal d) (.text (Operand.decimal e).toText) =
        op.apply (.decimal d) (.decimal e) ∧
      op.apply (.decimal d) (.decimal e) = op.relates d.value e.value :=
  ⟨Operator.apply_congr_order? hop (Operand.order?_decimal_toText d e),
    Operator.apply_decimal (Operator.isLogical_of_isOrdering hop) d e⟩

/-- The decimals of the least and of the greatest scale, one of them negative. -/
theorem decimal_orders_number_and_text_of_limits :
    let d : Decimal := { coefficient := 1, scale := 9223372036854775807 }
    let e : Decimal := { coefficient := -12, scale := -9223372036854775808 }
    Operator.gt.isOrdering = true ∧
      (Operand.decimal e).toText = "-12e+9223372036854775808" ∧
      Operator.gt.apply (.decimal d) (.text (Operand.decimal e).toText) = true := by
  intro d e
  have hop : Operator.gt.isOrdering = true := rfl
  obtain ⟨htext, -⟩ := decimal_orders_number_and_text hop d e
  refine ⟨hop, by decide +kernel, ?_⟩
  rw [htext]
  -- the signs decide, before any power of ten is looked at
  decide +kernel

end Criterion
