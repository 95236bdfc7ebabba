import Criterion.Proofs.Comparing
import Criterion.Proofs.Decimal.Written
import Criterion.Proofs.Text.Octets

/-!
# What orderings hold

The left operand decides how two operands are ordered: a text by the text of the other one, a decimal by
the number that the other one is read as, and nothing else at all. Where there is an order, an ordering
and its opposite exclude each other and leave no third case. Within the texts, and within the decimals,
the order is a strict total one, which equality fits into: of the texts by their characters' code points,
or by their octets, and of the decimals by the numbers that they denote.
-/

namespace Criterion

/-! ## Where there is an order -/

namespace Operand

/-- Operands that are not ordered: nothing is, by null; nothing but a text or a decimal is, by anything;
and no decimal is by what has no number for its text. -/
inductive Unordered : Operand → Operand → Prop where
  | null (l : Operand) : Unordered l null
  | kind {l : Operand} (r : Operand) :
      (∀ s, l ≠ text s) → (∀ d, l ≠ decimal d) → Unordered l r
  | number (d : Decimal) {r : Operand} : Decimal.ofText? r.toText = none → Unordered (decimal d) r

/-- A decimal's own text has a number too. -/
theorem toDecimal?_eq_none_iff {a : Operand} :
    a.toDecimal? = none ↔ Decimal.ofText? a.toText = none := by
  cases a with
  | decimal d =>
      -- both sides fail: it is a number itself, and one is read back from its text
      obtain ⟨e, he, -⟩ := Decimal.exists_ofText?_toText d
      have hread : Decimal.ofText? (decimal d).toText = some e := he
      rw [hread]
      exact ⟨nofun, nofun⟩
  | null => exact Iff.rfl
  | text s => exact Iff.rfl
  | parameter name => exact Iff.rfl
  | blank => exact Iff.rfl
  | bool b => exact Iff.rfl

/-- A text is ordered by the text of anything but null. -/
theorem order?_text {r : Operand} (hr : r ≠ null) (s : String) :
    (text s).order? r = some (orderTexts s r.toText) := by
  cases r with
  | null => exact absurd rfl hr
  | _ => rfl

/-- A decimal is ordered by what is read as a number. -/
theorem order?_decimal {r : Operand} (hr : r ≠ null) (d : Decimal) :
    (decimal d).order? r = r.toDecimal?.map d.order := by
  cases r with
  | null => exact absurd rfl hr
  | _ => rfl

/-- These are all the operands without an order. -/
theorem order?_eq_none_iff {l r : Operand} : l.order? r = none ↔ Unordered l r := by
  constructor
  · intro h
    by_cases hr : r = null
    · rw [hr]
      exact .null l
    · -- the left operand decides, and a text is ordered by all that is left
      cases l with
      | text s =>
          rw [order?_text hr] at h
          cases h
      | decimal d =>
          rw [order?_decimal hr, Option.map_eq_none_iff] at h
          exact .number d (toDecimal?_eq_none_iff.mp h)
      | null => exact .kind r (by simp) (by simp)
      | parameter name => exact .kind r (by simp) (by simp)
      | blank => exact .kind r (by simp) (by simp)
      | bool b => exact .kind r (by simp) (by simp)
  · intro h
    cases h with
    | null => rfl
    | kind r htext hdecimal =>
        unfold order?
        split
        · rfl
        · split
          · next s => exact absurd rfl (htext s)
          · next d => exact absurd rfl (hdecimal d)
          · rfl
    | @number d r hnone =>
        by_cases hr : r = null
        · rw [hr]
          rfl
        · rw [order?_decimal hr, toDecimal?_eq_none_iff.mpr hnone]
          rfl

end Operand

/-! ## An ordering and its opposite -/

/-- Exactly one of the operators holds of the two operands. -/
def OneOf (ops : List Operator) (l r : Operand) : Prop := ops.countP (fun op => op.apply l r) = 1

theorem Operand.Unordered.apply_eq_false {l r : Operand} (h : l.Unordered r) {op : Operator}
    (hop : op ∈ [Operator.lt, .le, .gt, .ge]) : op.apply l r = false := by
  have hnone := Operand.order?_eq_none_iff.mpr h
  simp only [List.mem_cons, List.not_mem_nil, or_false] at hop
  rcases hop with rfl | rfl | rfl | rfl <;> rw [Operator.apply, hnone, Option.any_none]

/-- The four operators that ask for an order. -/
def Operator.isOrdering : Operator → Bool
  | gt | ge | lt | le => true
  | _ => false

theorem Operator.isOrdering_iff {op : Operator} :
    op.isOrdering = true ↔ op ∈ [Operator.lt, .le, .gt, .ge] := by
  cases op <;> decide

theorem Operator.isLogical_of_isOrdering {op : Operator} (h : op.isOrdering = true) :
    op.isLogical = false := by
  cases op with
  | and => cases h
  | or => cases h
  | _ => rfl

/-- An ordering asks for nothing but the order. -/
theorem Operator.apply_congr_order? {op : Operator} (hop : op.isOrdering = true)
    {l r l' r' : Operand} (h : l.order? r = l'.order? r') : op.apply l r = op.apply l' r' := by
  cases op with
  | gt => rw [apply, apply, h]
  | ge => rw [apply, apply, h]
  | lt => rw [apply, apply, h]
  | le => rw [apply, apply, h]
  | _ => cases hop

/-- Where there is an order, the opposite of an ordering is its negation. -/
theorem apply_of_order? {l r : Operand} {o : Ordering} (h : l.order? r = some o) :
    OneOf [.lt, .ge] l r ∧ OneOf [.gt, .le] l r ∧
      ¬ (Operator.lt.apply l r = true ∧ Operator.gt.apply l r = true) := by
  simp only [OneOf, Operator.apply, List.countP_cons, List.countP_nil, h, Option.any_some]
  cases o <;> simp

/-! ## The order of texts -/

/-- The code points of a text's characters. -/
def codePoints (s : String) : List Nat := s.toList.map Char.toNat

theorem map_toNat_lt_iff {cs ds : List Char} :
    cs.map Char.toNat < ds.map Char.toNat ↔ cs < ds := by
  induction cs generalizing ds with
  | nil =>
      cases ds with
      | nil => simp
      | cons d ds => simp
  | cons c cs ih =>
      cases ds with
      | nil => simp
      | cons d ds =>
          have hlt : c.toNat < d.toNat ↔ c < d := Iff.rfl
          have heq : c.toNat = d.toNat ↔ c = d := Char.toNat_inj
          rw [List.map_cons, List.map_cons, List.cons_lt_cons_iff, List.cons_lt_cons_iff, ih, hlt, heq]

/-- Texts are in the order of their code points. -/
theorem lt_iff_lex_codePoints {s t : String} :
    s < t ↔ List.Lex (· < ·) (codePoints s) (codePoints t) := by
  rw [List.lex_lt, codePoints, codePoints, map_toNat_lt_iff, String.lt_iff_toList_lt]

/-- **A comparison of two texts is one in the order of their code points.** -/
theorem Operator.apply_text {op : Operator} (h : op.isLogical = false) (s t : String) :
    op.apply (.text s) (.text t) = op.relates s t := by
  have hequal : (Operand.text s).equals (.text t) = decide (s = t) :=
    Bool.eq_iff_iff.mpr ((Operand.equals_text s t).trans decide_eq_true_iff.symm)
  exact apply_eq_relates hequal rfl h

/-! ## Operands of one kind -/

/-- Operands that a strict total order tells apart, with equality for what it leaves equal. -/
structure LinearlyOrdered {β : Type} (operand : β → Operand) : Prop where
  /-- Of two operands, one comes first, or they are equal. -/
  trichotomy (x y : β) : OneOf [.lt, .eq, .gt] (operand x) (operand y)
  le_iff (x y : β) : Operator.le.apply (operand x) (operand y) = true ↔
    Operator.lt.apply (operand x) (operand y) = true ∨
      Operator.eq.apply (operand x) (operand y) = true
  lt_iff_gt (x y : β) : Operator.lt.apply (operand x) (operand y) = true ↔
    Operator.gt.apply (operand y) (operand x) = true
  lt_trans (x y z : β) : Operator.lt.apply (operand x) (operand y) = true →
    Operator.lt.apply (operand y) (operand z) = true →
    Operator.lt.apply (operand x) (operand z) = true

/-- Operands are so told apart if they are compared by their ranks in a linear order. -/
theorem LinearlyOrdered.of_rank {α β : Type} [LinearOrder α] {operand : β → Operand} {rank : β → α}
    (h : ∀ op : Operator, op.isLogical = false → ∀ x y,
      op.apply (operand x) (operand y) = op.relates (rank x) (rank y)) :
    LinearlyOrdered operand where
  trichotomy x y := by
    simp only [OneOf, List.countP_cons, List.countP_nil, h .lt rfl, h .eq rfl, h .gt rfl,
      Operator.relates, decide_eq_true_iff]
    -- each case makes one of the three counts one, and the others none
    rcases lt_trichotomy (rank x) (rank y) with hlt | heq | hgt
    · simp [hlt, hlt.ne, hlt.not_gt]
    · simp [heq]
    · simp [hgt, hgt.ne', hgt.not_gt]
  le_iff x y := by
    rw [h .le rfl, h .lt rfl, h .eq rfl]
    simp only [Operator.relates, decide_eq_true_iff]
    exact le_iff_lt_or_eq
  lt_iff_gt x y := by
    rw [h .lt rfl, h .gt rfl]
    exact Iff.rfl
  lt_trans x y z hxy hyz := by
    rw [h .lt rfl, Operator.relates, decide_eq_true_iff] at *
    exact hxy.trans hyz

/-- **An ordering holds only where there is an order, and there it excludes its opposite and nothing
else; texts are told apart by their code points, which is by their octets, and decimals by the numbers
that they denote.** -/
theorem ordering_laws :
    (∀ l r : Operand, l.Unordered r → ∀ op ∈ [Operator.lt, .le, .gt, .ge], op.apply l r = false) ∧
    (∀ l r : Operand, ¬ l.Unordered r →
      OneOf [.lt, .ge] l r ∧ OneOf [.gt, .le] l r ∧
        ¬ (Operator.lt.apply l r = true ∧ Operator.gt.apply l r = true)) ∧
    LinearlyOrdered Operand.decimal ∧
    LinearlyOrdered Operand.text ∧
    (∀ d e : Decimal, Operator.lt.apply (.decimal d) (.decimal e) = true ↔ d.value < e.value) ∧
    (∀ s t : String,
      (Operator.lt.apply (.text s) (.text t) = true ↔
        List.Lex (· < ·) (codePoints s) (codePoints t)) ∧
      (Operator.lt.apply (.text s) (.text t) = true ↔
        List.Lex (· < ·) (utf8Octets s) (utf8Octets t))) := by
  refine ⟨fun l r h op hop => ?_, fun l r h => ?_, .of_rank fun op => Operator.apply_decimal,
    .of_rank fun op => Operator.apply_text, fun d e => ?_, fun s t => ?_⟩
  · exact h.apply_eq_false hop
  · obtain ⟨o, ho⟩ := Option.ne_none_iff_exists'.mp (mt Operand.order?_eq_none_iff.mp h)
    exact apply_of_order? ho
  · rw [Operator.apply_decimal rfl, Operator.relates, decide_eq_true_iff]
  · rw [Operator.apply_text rfl, Operator.relates, decide_eq_true_iff]
    exact ⟨lt_iff_lex_codePoints, utf8Octets_lt_iff.symm.trans List.lex_lt.symm⟩

/-- One half, with three places, is less than one, with none; a text that is no number is not ordered by
it; and a text is ordered by a truth value through the name of that. -/
theorem ordering_laws_of_one_half :
    (Operand.decimal { coefficient := 500, scale := 3 }).Unordered (.text "half") ∧
      Operator.lt.apply (.decimal { coefficient := 500, scale := 3 }) (.text "half") = false ∧
      Operator.lt.apply (.decimal { coefficient := 500, scale := 3 }) (.decimal (.ofInt 1)) = true ∧
      ¬ (Operand.text "half").Unordered (.bool true) ∧
      OneOf [.lt, .ge] (.text "half") (.bool true) := by
  obtain ⟨hnone, hsome, -, -, hvalue, -⟩ := ordering_laws
  have hhalf : (Operand.decimal { coefficient := 500, scale := 3 }).Unordered (.text "half") :=
    .number _ (by decide +kernel)
  have hbool : ¬ (Operand.text "half").Unordered (.bool true) := fun h =>
    absurd (Operand.order?_eq_none_iff.mpr h) (by decide)
  refine ⟨hhalf, hnone _ _ hhalf .lt (by decide), (hvalue _ _).mpr ?_, hbool, (hsome _ _ hbool).1⟩
  norm_num [Decimal.value, Decimal.ofInt]

end Criterion
