import Criterion.Proofs.Decimal.Order
import Criterion.Proofs.Grouping
import Criterion.Proofs.Token.RoundTrip

/-!
# Comparing two words

A condition of two words with a comparison between them says of the words' values what the comparison
says. Of two decimals a comparison says what it says of the numbers they denote.
-/

namespace Criterion

/-! ## The order of numbers -/

/-- What a comparison says of two members of a linear order. -/
def Operator.relates {α : Type} [LinearOrder α] (op : Operator) (a b : α) : Bool :=
  match op with
  | eq => a = b
  | ne => a ≠ b
  | gt => a > b
  | ge => a ≥ b
  | lt => a < b
  | le => a ≤ b
  | and | or => false

/-- The tests of an ordering are the relations that it tells apart. -/
theorem tests_compare {α : Type} [LinearOrder α] (a b : α) :
    (compare a b).isGT = decide (a > b) ∧ (compare a b).isGE = decide (a ≥ b) ∧
      (compare a b).isLT = decide (a < b) ∧ (compare a b).isLE = decide (a ≤ b) := by
  rcases lt_trichotomy a b with h | h | h
  · rw [compare_lt_iff_lt.mpr h]
    simp [h, h.le, h.not_ge, h.not_gt]
  · rw [compare_eq_iff_eq.mpr h]
    simp [h]
  · rw [compare_gt_iff_gt.mpr h]
    simp [h, h.le, h.not_ge, h.not_gt]

/-- A strictly monotone map keeps what comparisons say. -/
theorem Operator.relates_map {α β : Type} [LinearOrder α] [LinearOrder β] {f : α → β}
    (hf : StrictMono f) (op : Operator) (a b : α) : op.relates (f a) (f b) = op.relates a b := by
  cases op <;> simp [relates, hf.lt_iff_lt, hf.le_iff_le, hf.injective.eq_iff]

/-- Operands that are equal and ordered as members of a linear order are compared as these are. -/
theorem Operator.apply_eq_relates {α : Type} [LinearOrder α] {l r : Operand} {a b : α}
    (hequal : l.equals r = decide (a = b)) (horder : l.order? r = some (compare a b))
    {op : Operator} (h : op.isLogical = false) : op.apply l r = op.relates a b := by
  obtain ⟨hgt, hge, hlt, hle⟩ := tests_compare a b
  cases op with
  | eq => exact hequal
  | ne => rw [apply, hequal, relates, decide_not]
  | gt => rw [apply, horder, relates, Option.any_some, hgt]
  | ge => rw [apply, horder, relates, Option.any_some, hge]
  | lt => rw [apply, horder, relates, Option.any_some, hlt]
  | le => rw [apply, horder, relates, Option.any_some, hle]
  | and => cases h
  | or => cases h

theorem Operand.equals_text (s t : String) : (text s).equals (text t) = true ↔ s = t := by
  show (text s == text t) = true ↔ _
  rw [beq_iff_eq, text.injEq]

/-- **A comparison of two decimals is one of the numbers they denote.** -/
theorem Operator.apply_decimal {op : Operator} (h : op.isLogical = false) (d e : Decimal) :
    op.apply (.decimal d) (.decimal e) = op.relates d.value e.value := by
  have hequal : (Operand.decimal d).equals (.decimal e) = decide (d.value = e.value) :=
    Bool.eq_iff_iff.mpr (Decimal.sameNumber_iff.trans decide_eq_true_iff.symm)
  have horder : (Operand.decimal d).order? (.decimal e) = some (compare d.value e.value) :=
    congrArg some (Decimal.order_eq_compare d e)
  exact apply_eq_relates hequal horder h

/-! ## A condition of one comparison -/

/-- Two words with an operator between them. -/
def comparing (v : String) (op : Operator) (w : String) : String := v ++ " " ++ op.text ++ " " ++ w

theorem tokenize_word {w : String} (hw : Token.IsWord w.toList) : tokenize w = [.word w] := by
  refine tokenize_of_renders ((Token.Joins.single (.word w)).renders fun t ht u h => ?_)
  rw [List.mem_singleton.mp ht] at h
  obtain rfl := Token.word.inj h
  exact hw

theorem tokenize_comparing {v w : String} (hv : Token.IsWord v.toList) (hw : Token.IsWord w.toList)
    (op : Operator) : tokenize (comparing v op w) = [.word v, .operator op, .word w] := by
  have hword : ∀ {u : String}, Token.IsWord u.toList → Token.IsProper (.word u) := by
    rintro u hu s h
    obtain rfl := Token.word.inj h
    exact hu
  have hblank : Token.Blanks [' '] := by decide
  -- three tokens with single spaces between them
  have hjoins : Token.Joins [.word v, .operator op, .word w] (comparing v op w).toList := by
    have hjoined := Token.Joins.cons (.word v) (by simp) hblank
      (.cons (.operator op) (by simp) hblank (.single (.word w)))
    simpa [comparing, Token.text] using hjoined
  have hop : Token.IsProper (.operator op) := fun s h => Token.noConfusion h
  refine tokenize_of_renders (hjoins.renders ?_)
  intro t ht
  simp only [List.mem_cons, List.not_mem_nil, or_false] at ht
  rcases ht with rfl | rfl | rfl
  · exact hword hv
  · exact hop
  · exact hword hw

/-- A condition of one comparison is the branch of its operator over its two words. -/
theorem parse_comparing_eq {v w : String} (hv : Token.IsWord v.toList) (hw : Token.IsWord w.toList)
    {op : Operator} (hop : op.isLogical = false) : Condition.parse (comparing v op w) =
      .ok ⟨.branch (some op) (some (.leaf (.ofWord v))) (some (.leaf (.ofWord w)))⟩ := by
  rw [parse_eq_ofTokens, tokenize_comparing hv hw, ofTokens_eq]
  cases op with
  | and => cases hop
  | or => cases hop
  -- the six comparisons
  | _ => rfl

/-- **A condition of one comparison holds where the comparison does.** -/
theorem parse_comparing {v w : String} (hv : Token.IsWord v.toList) (hw : Token.IsWord w.toList)
    (op : Relation) : ∃ c, Condition.parse (comparing v op.val w) = .ok c ∧ ∀ context,
      c.holds context =
        op.val.apply ((Operand.ofWord v).resolve context) ((Operand.ofWord w).resolve context) := by
  -- an expression of one comparison is settled, so that it has the value it is written with
  let e : Expression := .single (.comparison (.relation ⟨v.toList, hv⟩ op ⟨w.toList, hw⟩))
  have htokens : tokenize (comparing v op.val w) = e.tokens := by
    rw [tokenize_comparing hv hw]
    simp [e, Expression.tokens, Term.tokens, Comparison.tokens, Word.token]
  refine ⟨_, parse_of_tokenize htokens, fun context => ?_⟩
  have hvalue := Expression.value_tree (show e.isSettled = true from rfl) context
  rw [Bool.eq_iff_iff, Condition.holds_iff, hvalue]
  simp [e, Expression.value, Term.value, Comparison.value, Word.literal]

end Criterion
