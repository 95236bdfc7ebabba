import Criterion.Operand.Comparison
import Criterion.Proofs.Decimal.Order
import Criterion.Proofs.Evaluation

/-!
# What equality does and does not keep

Up to the numbers that decimals denote, operands fall into classes, and equality is membership in one
class with a single exception: the blank mark equals whatever is blank. Blank operands are in more than
one class, for null is none of the blank texts. So equality is symmetric, and it passes through every
operand but the blank mark.
-/

namespace Criterion

namespace Operand

/-! ## Equality up to numbers -/

/-- The same operand, or two decimals that denote one number. -/
theorem same_iff {a b : Operand} :
    a.same b = true ↔ a = b ∨ ∃ d e, a = decimal d ∧ b = decimal e ∧ d.value = e.value := by
  unfold same
  split
  · next d e =>
      rw [Decimal.sameNumber_iff]
      constructor
      · intro h
        exact .inr ⟨d, e, rfl, rfl, h⟩
      · rintro (h | ⟨d', e', hd, he, h⟩)
        · rw [decimal.inj h]
        · rw [decimal.inj hd, decimal.inj he, h]
  · next hno =>
      rw [beq_iff_eq]
      constructor
      · exact .inl
      · rintro (h | ⟨d, e, hd, he, -⟩)
        · exact h
        · exact absurd he (hno d e hd)

theorem same_refl (a : Operand) : a.same a = true := same_iff.mpr (.inl rfl)

theorem same_symm {a b : Operand} (h : a.same b = true) : b.same a = true := by
  rcases same_iff.mp h with rfl | ⟨d, e, rfl, rfl, hvalue⟩
  · exact h
  · exact same_iff.mpr (.inr ⟨e, d, rfl, rfl, hvalue.symm⟩)

theorem same_trans {a b c : Operand} (hab : a.same b = true) (hbc : b.same c = true) :
    a.same c = true := by
  rcases same_iff.mp hab with rfl | ⟨d, e, rfl, rfl, hde⟩
  · exact hbc
  · rcases same_iff.mp hbc with rfl | ⟨e', f, he, rfl, hef⟩
    · exact hab
    · obtain rfl := decimal.inj he
      exact same_iff.mpr (.inr ⟨d, f, rfl, rfl, hde.trans hef⟩)

/-- A class of operands is blank as a whole or not at all. -/
theorem isBlank_eq_of_same {a b : Operand} (h : a.same b = true) : a.isBlank = b.isBlank := by
  rcases same_iff.mp h with rfl | ⟨d, e, rfl, rfl, -⟩
  · rfl
  · rfl

/-! ## Equality -/

/-- Null, the blank mark, and the texts without visible characters. -/
theorem isBlank_iff {a : Operand} : a.isBlank = true ↔
    a = null ∨ a = blank ∨ ∃ s, a = text s ∧ ∀ c ∈ s.toList, Criterion.isBlank c = true := by
  cases a <;> simp [isBlank, isBlankText]

/-- **Two operands are equal if one is the blank mark and the other is blank, or if they are the same
up to numbers.** -/
theorem equals_iff {a b : Operand} : a.equals b = true ↔
    a = blank ∧ b.isBlank = true ∨ b = blank ∧ a.isBlank = true ∨ a.same b = true := by
  cases a <;> cases b <;> simp [equals, isBlank, same]

/-- The blank mark equals what is blank. -/
theorem equals_blank_iff {a : Operand} : a.equals blank = true ↔ a.isBlank = true := by
  rw [equals_iff]
  constructor
  · rintro (⟨rfl, -⟩ | ⟨-, h⟩ | h)
    · rfl
    · exact h
    · rw [isBlank_eq_of_same h]
      rfl
  · intro h
    exact .inr (.inl ⟨rfl, h⟩)

theorem equals_refl (a : Operand) : a.equals a = true := equals_iff.mpr (.inr (.inr (same_refl a)))

/-- The exception is made on both sides. -/
theorem equals_symm {a b : Operand} (h : a.equals b = true) : b.equals a = true := by
  rcases equals_iff.mp h with hblank | hblank | hsame
  · exact equals_iff.mpr (.inr (.inl hblank))
  · exact equals_iff.mpr (.inl hblank)
  · exact equals_iff.mpr (.inr (.inr (same_symm hsame)))

theorem equals_comm (a b : Operand) : a.equals b = b.equals a :=
  Bool.eq_iff_iff.mpr ⟨equals_symm, equals_symm⟩

/-- Equality passes through every operand but the blank mark. -/
theorem equals_trans {a b c : Operand} (hb : b ≠ blank) (hab : a.equals b = true)
    (hbc : b.equals c = true) : a.equals c = true := by
  rcases equals_iff.mp hab with ⟨rfl, hblank⟩ | ⟨rfl, -⟩ | hsame
  · -- what equals a blank operand is blank
    refine equals_symm (equals_blank_iff.mpr ?_)
    rcases equals_iff.mp hbc with ⟨rfl, -⟩ | ⟨rfl, -⟩ | hsame
    · exact absurd rfl hb
    · rfl
    · rw [← isBlank_eq_of_same hsame, hblank]
  · exact absurd rfl hb
  · -- the first operand is of the class of the middle one, and blank if that is
    rcases equals_iff.mp hbc with ⟨rfl, -⟩ | ⟨rfl, hblank⟩ | hsame'
    · exact absurd rfl hb
    · exact equals_blank_iff.mpr (by rw [isBlank_eq_of_same hsame, hblank])
    · exact equals_iff.mpr (.inr (.inr (same_trans hsame hsame')))

end Operand

/-! ## Swapping the sides -/

theorem Operator.apply_eq_comm (a b : Operand) : eq.apply a b = eq.apply b a := a.equals_comm b

theorem Operator.apply_ne_comm (a b : Operand) : ne.apply a b = ne.apply b a :=
  congrArg not (a.equals_comm b)

/-- The children of an operator that does not mind the order of its operands may change places. -/
theorem Node.value_swap {op : Operator} (hop : ∀ a b, op.apply a b = op.apply b a) (l r : Node)
    (context : Option Datum) : (branch (some op) (some l) (some r)).value context =
      (branch (some op) (some r) (some l)).value context := by
  rw [value, value]
  exact congrArg Operand.bool (hop _ _)

/-- **Equality holds of every operand with itself and in both directions**; the blank mark equals null,
itself and the texts without visible characters; and equality passes through an operand just if that is
not the blank mark. So the sides of `==` and of `!=` may be swapped in every tree and context. -/
theorem equality_laws :
    (∀ a : Operand, a.equals a = true) ∧
      (∀ a b : Operand, a.equals b = b.equals a) ∧
      (∀ a : Operand,
        (a.equals .blank = true ↔
          a = .null ∨ a = .blank ∨ ∃ s, a = .text s ∧ ∀ c ∈ s.toList, isBlank c = true) ∧
        (Operand.blank.equals a = true ↔
          a = .null ∨ a = .blank ∨ ∃ s, a = .text s ∧ ∀ c ∈ s.toList, isBlank c = true)) ∧
      (∀ b : Operand,
        (∀ a c : Operand, a.equals b = true → b.equals c = true → a.equals c = true) ↔
          b ≠ .blank) ∧
      ∀ (l r : Node) (context : Option Datum),
        (Node.branch (some .eq) (some l) (some r)).evaluate context =
            (Node.branch (some .eq) (some r) (some l)).evaluate context ∧
          (Node.branch (some .ne) (some l) (some r)).evaluate context =
            (Node.branch (some .ne) (some r) (some l)).evaluate context := by
  refine ⟨Operand.equals_refl, Operand.equals_comm, fun a => ?_, fun b => ?_, fun l r context => ?_⟩
  · have hleft := Operand.equals_blank_iff.trans (Operand.isBlank_iff (a := a))
    exact ⟨hleft, by rw [Operand.equals_comm]; exact hleft⟩
  · constructor
    · rintro hpass rfl
      -- null is equal to the blank mark, and so is the empty text, but they differ
      exact absurd (hpass .null (.text "") (by decide) (by decide)) (by decide)
    · exact fun hb a c => Operand.equals_trans hb
  · rw [Node.evaluate_eq_value, Node.evaluate_eq_value, Node.evaluate_eq_value,
      Node.evaluate_eq_value]
    exact ⟨Node.value_swap Operator.apply_eq_comm l r context,
      Node.value_swap Operator.apply_ne_comm l r context⟩

/-- The blank mark equals a text that is one ideographic space, and so all that this text equals. Null
is equal to the blank mark as well, and not to the text. -/
theorem equality_laws_of_ideographic_space :
    Operand.text "\u3000" ≠ .blank ∧
      Operand.blank.equals (.text "\u3000") = true ∧
      (Operand.text "\u3000").equals (.text "\u3000") = true ∧
      Operand.null.equals (.text "\u3000") = false ∧
      ∀ c : Operand, (Operand.text "\u3000").equals c = true → Operand.blank.equals c = true := by
  obtain ⟨hrefl, -, hblank, hpass, -⟩ := equality_laws
  have hne : Operand.text "\u3000" ≠ .blank := by decide
  have hspace : Operand.blank.equals (.text "\u3000") = true :=
    (hblank (.text "\u3000")).2.mpr (.inr (.inr ⟨"\u3000", rfl, List.all_eq_true.mp (by decide)⟩))
  exact ⟨hne, hspace, hrefl _, by decide, fun c => (hpass _).mpr hne .blank c hspace⟩

end Criterion
