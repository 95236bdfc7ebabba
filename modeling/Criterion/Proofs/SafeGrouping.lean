import Criterion.Proofs.Misgrouping

/-!
# A fragment in which parentheses group

A group with one logical operator is closed by its own parenthesis but for the branch of the group,
which has no operator and so no say in the value. Hence an expression is grouped as it is written if
every group in it that a logical operator follows has one logical operator at most. Groups at the end of
a chain may hold any number of them.
-/

namespace Criterion

mutual

/-- How many logical operators a term holds, those of all groups inside of it counted. -/
def Term.connectiveCount : Term → Nat
  | .comparison _ => 0
  | .group e => e.connectiveCount

/-- How many logical operators an expression holds, those of all groups inside of it counted. -/
def Expression.connectiveCount : Expression → Nat
  | .single t => t.connectiveCount
  | .joined t _ e => t.connectiveCount + 1 + e.connectiveCount

end

mutual

/-- Has every group in the term that a logical operator follows one logical operator at most? -/
def Term.isSafe : Term → Bool
  | .comparison _ => true
  | .group e => e.isSafe

/-- Has every group in the expression that a logical operator follows one logical operator at most? -/
def Expression.isSafe : Expression → Bool
  | .single t => t.isSafe
  | .joined t _ e => decide (t.connectiveCount ≤ 1) && t.isSafe && e.isSafe

end

/-! ## What groups with few operators leave open -/

mutual

theorem Term.unclosed_eq_nil {t : Term} (h : t.connectiveCount = 0) : t.unclosed = [] := by
  cases t with
  | comparison c => rfl
  | group e =>
      rw [Term.unclosed, Expression.unclosed_eq_nil h]
      rfl

/-- Without a logical operator every parenthesis is closed by its own. -/
theorem Expression.unclosed_eq_nil {e : Expression} (h : e.connectiveCount = 0) :
    e.unclosed = [] := by
  cases e with
  | single t => exact Term.unclosed_eq_nil h
  | joined t op e =>
      rw [Expression.connectiveCount] at h
      omega

end

mutual

/-- A single logical operator in a group is closed by the group's parenthesis. -/
theorem Term.operator_notMem_unclosed {t : Term} (h : t.connectiveCount ≤ 1) :
    Opening.operator ∉ t.unclosed := by
  cases t with
  | comparison c => exact List.not_mem_nil
  | group e =>
      have he := Expression.operator_notMem_tail_unclosed h
      rw [Term.unclosed]
      cases hopen : e.unclosed with
      | nil => exact List.not_mem_nil
      | cons o os =>
          rw [hopen] at he
          simpa using he

/-- A single logical operator is what was opened last, if it is open. -/
theorem Expression.operator_notMem_tail_unclosed {e : Expression} (h : e.connectiveCount ≤ 1) :
    Opening.operator ∉ e.unclosed.tail := by
  cases e with
  | single t => exact fun hmem => Term.operator_notMem_unclosed h (List.mem_of_mem_tail hmem)
  | joined t op e =>
      rw [Expression.connectiveCount] at h
      -- the operator is the only one, so that neither side leaves anything open
      have ht : t.unclosed = [] := Term.unclosed_eq_nil (by omega)
      have he : e.unclosed = [] := Expression.unclosed_eq_nil (by omega)
      rw [Expression.unclosed, ht, he]
      exact List.not_mem_nil

end

mutual

theorem Term.isSettled_of_isSafe {t : Term} (h : t.isSafe = true) : t.isSettled = true := by
  cases t with
  | comparison c => rfl
  | group e => exact Expression.isSettled_of_isSafe h

/-- No group that leaves a logical operator open is followed by another one. -/
theorem Expression.isSettled_of_isSafe {e : Expression} (h : e.isSafe = true) :
    e.isSettled = true := by
  cases e with
  | single t => exact Term.isSettled_of_isSafe h
  | joined t op e =>
      rw [Expression.isSafe, Bool.and_eq_true, Bool.and_eq_true, decide_eq_true_eq] at h
      obtain ⟨⟨hcount, ht⟩, he⟩ := h
      have hopen := Term.operator_notMem_unclosed hcount
      rw [Expression.isSettled, Term.isSettled_of_isSafe ht, Expression.isSettled_of_isSafe he]
      simpa using hopen

end

/-! ## The law of the fragment -/

/-- **One logical operator in every group that another one follows.** Such an expression can be written,
and however it is written, it parses to a tree with its value in every context and without one. -/
theorem parse_of_isSafe {e : Expression} (h : e.isSafe = true) :
    (∃ text, tokenize text = e.tokens) ∧
      ∀ text, tokenize text = e.tokens → ∃ c, Condition.parse text = .ok c ∧
        ∀ context, c.root.evaluate context = e.value context := by
  refine ⟨⟨e.text, e.tokenize_text⟩, fun text htext => ⟨_, parse_of_tokenize htext, ?_⟩⟩
  intro context
  rw [Node.evaluate_eq_value]
  exact Expression.value_tree (Expression.isSettled_of_isSafe h) context

/-- The condition `((1 == 1) && 1 != 1) || (1 == 1 && (1 == 1 || (1 != 1 && 1 != 1)))`. -/
def Expression.nestedGroups : Expression :=
  .joined (.group (.joined (.group (.single (.comparison (.ofBool true)))) .and
      (.single (.comparison (.ofBool false))))) .or
    (.single (.group (.joined (.comparison (.ofBool true)) .and
      (.single (.group (.joined (.comparison (.ofBool true)) .or
        (.single (.group (.joined (.comparison (.ofBool false)) .and
          (.single (.comparison (.ofBool false))))))))))))

/-- The group at the end holds three logical operators, and those in front of an operator one or
none. -/
theorem parse_of_isSafe_nested :
    Expression.nestedGroups.isSafe = true ∧
      ∃ c, Condition.parse
          "((1 == 1) && 1 != 1) || (1 == 1 && (1 == 1 || (1 != 1 && 1 != 1)))" = .ok c ∧
        ∀ context, c.root.evaluate context = Expression.nestedGroups.value context := by
  have hsafe : Expression.nestedGroups.isSafe = true := by decide
  have htokens : tokenize "((1 == 1) && 1 != 1) || (1 == 1 && (1 == 1 || (1 != 1 && 1 != 1)))" =
      Expression.nestedGroups.tokens := by decide +kernel
  exact ⟨hsafe, (parse_of_isSafe hsafe).2 _ htokens⟩

end Criterion
