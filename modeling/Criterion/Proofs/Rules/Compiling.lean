import Criterion.Proofs.Except
import Criterion.Rules.Compiled

/-!
# Compiling rules

A rule set compiles just if the conditions of all its rules can be parsed, and then it has the parsed
conditions in the order and under the names of the rules. Otherwise the first rule with a malformed
condition is told.
-/

namespace Criterion

/-! ## One rule and all of them -/

/-- A rule compiles to its parsed condition, under its own name. -/
theorem Rule.compile_eq_ok_iff {rule : Rule} {compiled : CompiledRule} :
    rule.compile = .ok compiled ↔
      compiled.name = rule.name ∧ Condition.parse rule.condition = .ok compiled.condition := by
  unfold Rule.compile
  cases Condition.parse rule.condition with
  | error cause =>
      constructor
      · rintro ⟨⟩
      · rintro ⟨-, ⟨⟩⟩
  | ok condition =>
      constructor
      · rintro ⟨⟩
        exact ⟨rfl, rfl⟩
      · obtain ⟨name, parsed⟩ := compiled
        rintro ⟨rfl, ⟨⟩⟩
        rfl

/-- If it does not, the error has its name, and says what is wrong with its condition. -/
theorem Rule.compile_eq_error_iff {rule : Rule} {e : Error} :
    rule.compile = .error e ↔
      ∃ cause, Condition.parse rule.condition = .error cause ∧ e = .invalidRule rule.name cause := by
  unfold Rule.compile
  cases Condition.parse rule.condition with
  | error cause =>
      constructor
      · rintro ⟨⟩
        exact ⟨cause, rfl, rfl⟩
      · rintro ⟨_, ⟨⟩, rfl⟩
        rfl
  | ok condition =>
      constructor
      · rintro ⟨⟩
      · rintro ⟨_, ⟨⟩, -⟩

/-- A rule set compiles to the parsed conditions of its rules, each under the name of its rule. -/
theorem RuleSet.compile_eq_ok_iff {set : RuleSet} {compiled : CompiledSet} :
    set.compile = .ok compiled ↔ compiled.name = set.name ∧
      List.Forall₂ (fun rule c => c.name = rule.name ∧
        Condition.parse rule.condition = .ok c.condition) set.rules compiled.rules := by
  simp only [← Rule.compile_eq_ok_iff]
  rw [RuleSet.compile, bind_eq_ok_iff]
  constructor
  · rintro ⟨rules, hrules, ⟨⟩⟩
    exact ⟨rfl, mapM_eq_ok_iff.mp hrules⟩
  · obtain ⟨name, rules⟩ := compiled
    rintro ⟨rfl, hrules⟩
    exact ⟨rules, mapM_eq_ok_iff.mpr hrules, rfl⟩

/-- **The first malformed condition is told.** -/
theorem RuleSet.compile_eq_error_iff {set : RuleSet} {e : Error} :
    set.compile = .error e ↔ ∃ before rule behind cause, set.rules = before ++ rule :: behind ∧
      (∀ r ∈ before, ∃ c, Condition.parse r.condition = .ok c) ∧
      Condition.parse rule.condition = .error cause ∧ e = .invalidRule rule.name cause := by
  have hparses : ∀ r : Rule, (∃ c, r.compile = .ok c) ↔
      ∃ c, Condition.parse r.condition = .ok c := by
    intro r
    simp only [Rule.compile_eq_ok_iff]
    exact ⟨fun ⟨c, _, h⟩ => ⟨c.condition, h⟩, fun ⟨c, h⟩ => ⟨⟨r.name, c⟩, rfl, h⟩⟩
  have hrules : set.compile = .error e ↔ set.rules.mapM Rule.compile = .error e := by
    rw [RuleSet.compile, bind_eq_error_iff]
    constructor
    · rintro (h | ⟨_, -, ⟨⟩⟩)
      exact h
    · exact .inl
  simp only [hrules, mapM_eq_error_iff, hparses, Rule.compile_eq_error_iff]
  constructor
  · rintro ⟨before, rule, behind, heq, hbefore, cause, hcause, he⟩
    exact ⟨before, rule, behind, cause, heq, hbefore, hcause, he⟩
  · rintro ⟨before, rule, behind, cause, heq, hbefore, hcause, he⟩
    exact ⟨before, rule, behind, heq, hbefore, cause, hcause, he⟩

/-- A rule set compiles just if the conditions of all its rules can be parsed. -/
theorem RuleSet.exists_compile_iff {set : RuleSet} :
    (∃ compiled, set.compile = .ok compiled) ↔
      ∀ rule ∈ set.rules, ∃ c, Condition.parse rule.condition = .ok c := by
  constructor
  · rintro ⟨compiled, h⟩
    have hrules := (RuleSet.compile_eq_ok_iff.mp h).2
    -- on the rules and their compiled forms side by side
    generalize set.rules = rules, compiled.rules = parsed at hrules
    induction hrules with
    | nil => exact nofun
    | cons hrule _ ih =>
        intro r hr
        rcases List.mem_cons.mp hr with rfl | hr
        · exact ⟨_, hrule.2⟩
        · exact ih r hr
  · intro h
    cases hcompile : set.compile with
    | ok compiled => exact ⟨compiled, rfl⟩
    | error e =>
        obtain ⟨before, rule, behind, cause, heq, -, hcause, -⟩ :=
          RuleSet.compile_eq_error_iff.mp hcompile
        obtain ⟨c, hc⟩ := h rule (by simp [heq])
        rw [hc] at hcause
        cases hcause

/-- **One outcome for each rule**, in the order of declaration: its name, and whether its own condition
holds. -/
theorem RuleSet.forall₂_evaluate {set : RuleSet} {compiled : CompiledSet}
    (h : set.compile = .ok compiled) (context : Datum) :
    List.Forall₂ (fun rule outcome => outcome.name = rule.name ∧
      ∃ c, Condition.parse rule.condition = .ok c ∧ outcome.matched = c.holds (some context))
      set.rules (compiled.evaluate context) := by
  rw [CompiledSet.evaluate, List.forall₂_map_right_iff]
  exact (RuleSet.compile_eq_ok_iff.mp h).2.imp fun _ c hc => ⟨hc.1, c.condition, hc.2, rfl⟩

end Criterion
