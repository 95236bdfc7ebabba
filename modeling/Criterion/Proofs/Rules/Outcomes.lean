import Criterion.Proofs.Rules.Compiling

/-!
# What becomes of each rule

A compiled set is asked in three ways: for the outcomes of all its rules, for the names of those that
hold, and for the rule with a name. The answers are about the same rules in the same order, those of
the set as it was written. Names may be empty or occur again; a name stands for the first rule that
has it.

Evaluating the set is evaluating each rule by itself. So a rule has the same outcome in every set that
it belongs to, wherever it stands there, provided that the set can be compiled at all.
-/

namespace Criterion

/-! ## Looking up a name -/

/-- If two lists agree member by member, and also in what is looked for, the first of one to be found
goes with the first of the other. -/
theorem rel_find? {α β : Type} {R : α → β → Prop} {p : α → Bool} {q : β → Bool}
    (hpq : ∀ a b, R a b → p a = q b) {l : List α} {l' : List β} (h : List.Forall₂ R l l') :
    Option.Rel R (l.find? p) (l'.find? q) := by
  induction h with
  | nil => exact .none
  | @cons a b l l' hab _ ih =>
      rw [List.find?_cons, List.find?_cons, ← hpq a b hab]
      cases p a with
      | true => exact .some hab
      | false => exact ih

namespace RuleSet

variable {set : RuleSet} {compiled : CompiledSet}

/-- Looking up a name among the compiled rules is looking it up among the rules. -/
theorem get_cases (h : set.compile = .ok compiled) (name : String) :
    (set.rules.find? (·.name == name) = none ∧ compiled.get name = .error (.ruleNotFound name)) ∨
      ∃ rule c, set.rules.find? (·.name == name) = some rule ∧ rule.compile = .ok c ∧
        compiled.get name = .ok c := by
  have hrules : List.Forall₂ (fun rule c => rule.compile = .ok c) set.rules compiled.rules :=
    (compile_eq_ok_iff.mp h).2.imp fun _ _ hc => Rule.compile_eq_ok_iff.mpr hc
  -- compiling keeps the name, so that both lists answer the same question
  have hnames : ∀ (rule : Rule) (c : CompiledRule), rule.compile = .ok c →
      (rule.name == name) = (c.name == name) := by
    intro rule c hc
    rw [(Rule.compile_eq_ok_iff.mp hc).1]
  have hfound := rel_find? hnames hrules
  unfold CompiledSet.get
  generalize set.rules.find? (·.name == name) = found,
    compiled.rules.find? (·.name == name) = found' at hfound
  cases hfound with
  | none => exact .inl ⟨rfl, rfl⟩
  | @some rule c hc => exact .inr ⟨rule, c, rfl, hc, rfl⟩

/-- **A name stands for the first rule that has it.** -/
theorem get_eq_ok_iff (h : set.compile = .ok compiled) {name : String} {c : CompiledRule} :
    compiled.get name = .ok c ↔ ∃ before rule behind, set.rules = before ++ rule :: behind ∧
      (∀ r ∈ before, r.name ≠ name) ∧ rule.name = name ∧ rule.compile = .ok c := by
  have hfirst : ∀ rule, set.rules.find? (·.name == name) = some rule ↔ rule.name = name ∧
      ∃ before behind, set.rules = before ++ rule :: behind ∧ ∀ r ∈ before, r.name ≠ name := by
    intro rule
    simp only [List.find?_eq_some_iff_append, beq_iff_eq, Bool.not_eq_true', beq_eq_false_iff_ne]
  constructor
  · intro hget
    rcases get_cases h name with ⟨-, hnone⟩ | ⟨rule, c', hrule, hc, hsome⟩
    · rw [hnone] at hget
      cases hget
    · obtain ⟨hname, before, behind, heq, hbefore⟩ := (hfirst rule).mp hrule
      rw [hsome] at hget
      exact ⟨before, rule, behind, heq, hbefore, hname, Except.ok.inj hget ▸ hc⟩
  · rintro ⟨before, rule, behind, heq, hbefore, hname, hc⟩
    have hrule := (hfirst rule).mpr ⟨hname, before, behind, heq, hbefore⟩
    rcases get_cases h name with ⟨hnone, -⟩ | ⟨rule', c', hrule', hc', hsome⟩
    · rw [hnone] at hrule
      cases hrule
    · obtain rfl : rule' = rule := Option.some.inj (hrule'.symm.trans hrule)
      rw [hsome, ← hc', hc]

/-- A name is not found just if no rule has it, and nothing else can go wrong. -/
theorem get_eq_error_iff (h : set.compile = .ok compiled) {name : String} {e : Error} :
    compiled.get name = .error e ↔
      e = .ruleNotFound name ∧ ∀ rule ∈ set.rules, rule.name ≠ name := by
  have hnone : set.rules.find? (·.name == name) = none ↔ ∀ rule ∈ set.rules, rule.name ≠ name := by
    simp only [List.find?_eq_none, beq_iff_eq, ne_eq]
  rw [← hnone]
  rcases get_cases h name with ⟨hfind, hget⟩ | ⟨rule, c, hfind, -, hget⟩
  · rw [hget, hfind, and_iff_left rfl]
    exact ⟨fun he => (Except.error.inj he).symm, fun he => he ▸ rfl⟩
  · rw [hget, hfind]
    constructor
    · rintro ⟨⟩
    · rintro ⟨-, ⟨⟩⟩

end RuleSet

/-! ## Outcomes -/

/-- The rules that hold are those whose outcome says so. -/
theorem CompiledSet.matching_eq (compiled : CompiledSet) (context : Datum) :
    compiled.matching context =
      ((compiled.evaluate context).filter (·.matched)).map (·.name) := by
  rw [matching, evaluate, List.filter_map, List.map_map]
  rfl

/-- What a rule comes to by itself. A malformed one does not hold. -/
def Rule.outcome (context : Datum) (rule : Rule) : Outcome where
  name := rule.name
  matched :=
    match Condition.parse rule.condition with
    | .ok c => c.holds (some context)
    | .error _ => false

/-- **Evaluating a set is evaluating each of its rules by itself.** -/
theorem RuleSet.evaluate_eq_map {set : RuleSet} {compiled : CompiledSet}
    (h : set.compile = .ok compiled) (context : Datum) :
    compiled.evaluate context = set.rules.map (Rule.outcome context) := by
  -- both lists go along the rules, so that they agree member by member
  have houtcomes : List.Forall₂ (fun outcome outcome' => outcome = outcome')
      (set.rules.map (Rule.outcome context)) (compiled.evaluate context) := by
    rw [List.forall₂_map_left_iff]
    refine (forall₂_evaluate h context).imp ?_
    rintro rule ⟨name, matched⟩ ⟨hname, c, hc, hmatched⟩
    dsimp only at hname hmatched
    rw [Rule.outcome, hc, hname, hmatched]
  rw [List.forall₂_eq_eq_eq] at houtcomes
  exact houtcomes.symm

/-- A set fails to compile just if one of its conditions is malformed. -/
theorem RuleSet.exists_error_iff {set : RuleSet} :
    (∃ e, set.compile = .error e) ↔
      ∃ rule ∈ set.rules, ∃ cause, Condition.parse rule.condition = .error cause := by
  constructor
  · rintro ⟨e, he⟩
    obtain ⟨before, rule, behind, cause, heq, -, hcause, -⟩ := compile_eq_error_iff.mp he
    exact ⟨rule, by simp [heq], cause, hcause⟩
  · rintro ⟨rule, hrule, cause, hcause⟩
    cases hcompile : set.compile with
    | error e => exact ⟨e, rfl⟩
    | ok compiled =>
        obtain ⟨c, hc⟩ := exists_compile_iff.mp ⟨compiled, hcompile⟩ rule hrule
        rw [hc] at hcause
        cases hcause

/-- A set whose rules are all taken from a set that compiles does so as well. -/
theorem RuleSet.exists_compile_of_subset {set other : RuleSet}
    (h : ∃ compiled, set.compile = .ok compiled) (hrules : other.rules ⊆ set.rules) :
    ∃ compiled, other.compile = .ok compiled :=
  exists_compile_iff.mpr fun rule hrule => exists_compile_iff.mp h rule (hrules hrule)

/-- **Each rule is judged by itself, and nothing is lost on the way.** A set fails to compile just if a
condition is malformed, and then the first such rule is told. If it compiles, every rule has its
outcome, in the order of declaration; the names of the rules that hold are those of the outcomes that
say so; and a name stands for the first rule that has it, or is not found if there is none. Whatever
other rules a set has, and in whatever order, a rule's outcome is the same; and rules that are taken
away or change their places do not keep a set from compiling. -/
theorem rules_evaluate_separately (set : RuleSet) :
    ((∃ e, set.compile = .error e) ↔
      ∃ rule ∈ set.rules, ∃ cause, Condition.parse rule.condition = .error cause) ∧
    (∀ e, set.compile = .error e ↔
      ∃ before rule behind cause, set.rules = before ++ rule :: behind ∧
        (∀ r ∈ before, ∃ c, Condition.parse r.condition = .ok c) ∧
        Condition.parse rule.condition = .error cause ∧ e = .invalidRule rule.name cause) ∧
    ∀ compiled, set.compile = .ok compiled →
      (∀ context, List.Forall₂ (fun rule outcome => outcome.name = rule.name ∧
          ∃ c, Condition.parse rule.condition = .ok c ∧ outcome.matched = c.holds (some context))
        set.rules (compiled.evaluate context)) ∧
      (∀ context, compiled.matching context =
        ((compiled.evaluate context).filter (·.matched)).map (·.name)) ∧
      (∀ name c, compiled.get name = .ok c ↔
        ∃ before rule behind, set.rules = before ++ rule :: behind ∧
          (∀ r ∈ before, r.name ≠ name) ∧ rule.name = name ∧
          c.name = name ∧ Condition.parse rule.condition = .ok c.condition) ∧
      (∀ name e, compiled.get name = .error e ↔
        e = .ruleNotFound name ∧ ∀ rule ∈ set.rules, rule.name ≠ name) ∧
      ∀ other : RuleSet,
        (other.rules ⊆ set.rules → ∃ compiled', other.compile = .ok compiled') ∧
        ∀ compiled', other.compile = .ok compiled' → ∀ (context : Datum) (i j : Nat),
          other.rules[j]? = set.rules[i]? →
            (compiled'.evaluate context)[j]? = (compiled.evaluate context)[i]? := by
  refine ⟨?_, fun e => RuleSet.compile_eq_error_iff, fun compiled h => ⟨?_, ?_, ?_, ?_, ?_⟩⟩
  · exact RuleSet.exists_error_iff
  · exact RuleSet.forall₂_evaluate h
  · exact compiled.matching_eq
  · intro name c
    rw [RuleSet.get_eq_ok_iff h]
    simp only [Rule.compile_eq_ok_iff]
    constructor
    · rintro ⟨before, rule, behind, heq, hbefore, rfl, hname, hc⟩
      exact ⟨before, rule, behind, heq, hbefore, rfl, hname, hc⟩
    · rintro ⟨before, rule, behind, heq, hbefore, rfl, hname, hc⟩
      exact ⟨before, rule, behind, heq, hbefore, rfl, hname, hc⟩
  · exact fun name e => RuleSet.get_eq_error_iff h
  · -- both evaluations judge the rule by itself, wherever it stands
    refine fun other => ⟨RuleSet.exists_compile_of_subset ⟨compiled, h⟩, ?_⟩
    intro compiled' h' context i j hsame
    rw [RuleSet.evaluate_eq_map h, RuleSet.evaluate_eq_map h', List.getElem?_map,
      List.getElem?_map, hsame]

/-- The first and the last of three rules share a name, and the second has the empty one. -/
def repeatedNames : RuleSet where
  rules := [⟨"a", "%x > 1", none⟩, ⟨"", "1 == 1", none⟩, ⟨"a", "%x < 1", none⟩]

/-- The last of these rules alone. -/
def lastOfRepeatedNames : RuleSet where
  rules := [⟨"a", "%x < 1", none⟩]

/-- A name that is there twice stands for its first rule, which holds where `x` is 5. The last rule has
the same name and does not hold, neither behind the others nor without them. -/
theorem rules_evaluate_separately_repeated :
    ∃ compiled, repeatedNames.compile = .ok compiled ∧
      compiled.matching (.object [("x", .number (.integer 5))]) = ["a", ""] ∧
      (∃ c, Condition.parse "%x > 1" = .ok c ∧ compiled.get "a" = .ok ⟨"a", c⟩) ∧
      compiled.get "b" = .error (.ruleNotFound "b") ∧
      ∃ compiled', lastOfRepeatedNames.compile = .ok compiled' ∧
        (compiled'.evaluate (.object [("x", .number (.integer 5))]))[0]? = some ⟨"a", false⟩ := by
  obtain ⟨compiled, hcompile⟩ := (exists_ok_iff repeatedNames.compile).mpr (by decide +kernel)
  obtain ⟨c, hc⟩ := (exists_ok_iff (Condition.parse "%x > 1")).mpr (by decide +kernel)
  have houtcomes : (repeatedNames.compile.toOption.map
      (·.evaluate (.object [("x", .number (.integer 5))]))) =
        some [⟨"a", true⟩, ⟨"", true⟩, ⟨"a", false⟩] := by decide +kernel
  rw [hcompile] at houtcomes
  have hevaluate : compiled.evaluate (.object [("x", .number (.integer 5))]) =
      [⟨"a", true⟩, ⟨"", true⟩, ⟨"a", false⟩] := Option.some.inj houtcomes
  obtain ⟨-, hmatching, hget, hmissing, hother⟩ :=
    (rules_evaluate_separately repeatedNames).2.2 compiled hcompile
  obtain ⟨compiled', hcompile'⟩ := (hother lastOfRepeatedNames).1 (by decide)
  refine ⟨compiled, hcompile, ?_, ⟨c, hc, ?_⟩, ?_, compiled', hcompile', ?_⟩
  · rw [hmatching, hevaluate]
    rfl
  · exact (hget "a" _).mpr ⟨[], _, _, rfl, nofun, rfl, rfl, hc⟩
  · exact (hmissing "b" _).mpr ⟨rfl, by decide⟩
  · rw [(hother lastOfRepeatedNames).2 compiled' hcompile' _ 2 0 rfl, hevaluate]
    rfl

end Criterion
