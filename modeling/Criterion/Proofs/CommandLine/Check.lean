import Criterion.CommandLine.Response
import Criterion.Proofs.Acceptance
import Criterion.Proofs.CommandLine.Calls
import Criterion.Proofs.CommandLine.Environment
import Criterion.Proofs.Rules.Outcomes

/-!
# Checking a rule file

To check a rule file is to evaluate the condition of each of its rules by itself, and to print the
answers side by side. Nothing is printed unless all of the rules can be evaluated; what is told otherwise
is the first thing that is wrong with the parameters, the file, and the rules in their order.
-/

namespace Criterion.CommandLine

/-! ## How a command ends -/

section

variable {files : Files} {inherited environment : Dotenv.Environment}
  (henv : environment? files inherited = some environment)
  {args : List String} {command : Command} (hargs : readArguments args = .run command)

include henv hargs

theorem answer_eq_of_ok {lines : List String}
    (h : perform files (environment Parameters.pathVariable) command = .ok lines) :
    answer files inherited args = .printed lines := by
  simp only [answer, henv, respond, hargs, h]

theorem answer_eq_of_error {reason : String}
    (h : perform files (environment Parameters.pathVariable) command = .error reason) :
    answer files inherited args = .failed reason := by
  simp only [answer, henv, respond, hargs, h]

/-- What is told of a failure is what the command fails with. -/
theorem reason?_answer_eq_iff {reason : String} :
    (answer files inherited args).reason? = some reason ↔
      perform files (environment Parameters.pathVariable) command = .error reason := by
  cases h : perform files (environment Parameters.pathVariable) command with
  | ok lines => rw [answer_eq_of_ok henv hargs h]; exact ⟨nofun, nofun⟩
  | error reason' =>
      rw [answer_eq_of_error henv hargs h, Response.reason?, Option.some.injEq, Except.error.injEq]

/-- The exit code is zero just if the command succeeds. -/
theorem code_answer_eq_zero_iff :
    (answer files inherited args).code = 0 ↔
      ∃ lines, perform files (environment Parameters.pathVariable) command = .ok lines := by
  cases h : perform files (environment Parameters.pathVariable) command with
  | ok lines =>
      rw [answer_eq_of_ok henv hargs h]
      exact ⟨fun _ => ⟨lines, rfl⟩, fun _ => rfl⟩
  | error reason =>
      rw [answer_eq_of_error henv hargs h]
      exact ⟨nofun, nofun⟩

/-- A command that does not succeed prints nothing. -/
theorem answer_of_code_ne_zero (h : (answer files inherited args).code ≠ 0) :
    (answer files inherited args).code = 1 ∧ (answer files inherited args).output = "" := by
  cases hp : perform files (environment Parameters.pathVariable) command with
  | ok lines => exact absurd ((code_answer_eq_zero_iff henv hargs).mpr ⟨lines, hp⟩) h
  | error reason =>
      rw [answer_eq_of_error henv hargs hp]
      exact ⟨rfl, rfl⟩

end

theorem loadParameters_of_ok {files : Files} {environment asked : Option String}
    {overrides : List Assignment} {fields : Fields}
    (h : Parameters.load files (Parameters.path asked environment) overrides = .ok fields) :
    loadParameters files environment asked overrides = .ok fields := by
  rw [loadParameters, h]
  rfl

theorem loadParameters_of_error {files : Files} {environment asked : Option String}
    {overrides : List Assignment} {e : Error}
    (h : Parameters.load files (Parameters.path asked environment) overrides = .error e) :
    loadParameters files environment asked overrides =
      .error (parametersFailure (Parameters.path asked environment)) := by
  rw [loadParameters, h]
  rfl

/-! ## What a check needs, and how it fails -/

/-- The rule set that a file holds. -/
def ruleSetOf (files : Files) (rules : String) : Except Error RuleSet :=
  files.read rules >>= RuleSet.ofYaml

/-- The parameters are loaded, the rule file holds at least one rule, and the condition of every rule
can be parsed. -/
structure CanCheck (files : Files) (path : Option String) (overrides : List Assignment)
    (rules : String) (fields : Fields) (set : RuleSet) : Prop where
  parameters : Parameters.load files path overrides = .ok fields
  rules : ruleSetOf files rules = .ok set
  ne_nil : set.rules ≠ []
  parses : ∀ rule ∈ set.rules, ∃ c, Condition.parse rule.condition = .ok c

/-- What is told of a rule with a malformed condition. -/
def ruleFailure (name : String) (cause : ConditionError) : String :=
  "Rule '" ++ name ++ "' is invalid: " ++ cause.message

/-- What is told of a check that fails: the first thing that is wrong. -/
inductive CheckFails (files : Files) (path : Option String) (overrides : List Assignment)
    (rules : String) : String → Prop where
  | parameters {e : Error} : Parameters.load files path overrides = .error e →
      CheckFails files path overrides rules (parametersFailure path)
  | rules {fields : Fields} {e : Error} : Parameters.load files path overrides = .ok fields →
      ruleSetOf files rules = .error e → CheckFails files path overrides rules (rulesFailure rules)
  | noRules {fields : Fields} {set : RuleSet} : Parameters.load files path overrides = .ok fields →
      ruleSetOf files rules = .ok set → set.rules = [] →
      CheckFails files path overrides rules (noRulesFailure rules)
  | malformed {fields : Fields} {set : RuleSet} {before behind : List Rule} {rule : Rule}
      {cause : ConditionError} : Parameters.load files path overrides = .ok fields →
      ruleSetOf files rules = .ok set → set.rules = before ++ rule :: behind →
      (∀ r ∈ before, ∃ c, Condition.parse r.condition = .ok c) →
      Condition.parse rule.condition = .error cause →
      CheckFails files path overrides rules (ruleFailure rule.name cause)

section

variable {files : Files} {environment asked : Option String} {overrides : List Assignment}
  {rules : String}

theorem loadRules_of_error {e : Error} (h : ruleSetOf files rules = .error e) :
    loadRules files rules = .error (rulesFailure rules) := by
  rw [ruleSetOf] at h
  rw [loadRules, h]
  rfl

theorem loadRules_of_nil {set : RuleSet} (h : ruleSetOf files rules = .ok set)
    (hnil : set.rules = []) : loadRules files rules = .error (noRulesFailure rules) := by
  rw [ruleSetOf] at h
  rw [loadRules, h, orElseTell]
  simp only [bind, Except.bind, hnil, List.isEmpty_nil, if_true]
  rfl

/-- A file with rules is compiled, and fails as its first malformed condition does. -/
theorem loadRules_of_ne_nil {set : RuleSet} (h : ruleSetOf files rules = .ok set)
    (hne : set.rules ≠ []) : loadRules files rules =
      match set.compile with
      | .ok compiled => .ok compiled
      | .error e => .error (e.message?.getD "") := by
  have hempty : set.rules.isEmpty = false := by simpa using hne
  rw [ruleSetOf] at h
  rw [loadRules, h, orElseTell]
  simp only [bind, Except.bind, hempty, Bool.false_eq_true, if_false]
  rfl

/-- A check that nothing stands in the way of prints a line for each rule. -/
theorem perform_of_canCheck {fields : Fields} {set : RuleSet}
    (h : CanCheck files (Parameters.path asked environment) overrides rules fields set) :
    ∃ compiled, set.compile = .ok compiled ∧
      perform files environment (.check rules asked overrides) =
        .ok ((compiled.evaluate (.object fields)).map outcomeLine) := by
  obtain ⟨compiled, hcompile⟩ := RuleSet.exists_compile_iff.mpr h.parses
  refine ⟨compiled, hcompile, ?_⟩
  rw [perform, loadParameters_of_ok h.parameters, loadRules_of_ne_nil h.rules h.ne_nil, hcompile]
  rfl

/-- A check that fails tells its reason. -/
theorem perform_of_checkFails {reason : String}
    (h : CheckFails files (Parameters.path asked environment) overrides rules reason) :
    perform files environment (.check rules asked overrides) = .error reason := by
  cases h with
  | parameters hload =>
      rw [perform, loadParameters_of_error hload]
      rfl
  | rules hload hrules =>
      rw [perform, loadParameters_of_ok hload, loadRules_of_error hrules]
      rfl
  | noRules hload hrules hnil =>
      rw [perform, loadParameters_of_ok hload, loadRules_of_nil hrules hnil]
      rfl
  | @malformed fields set before behind rule cause hload hrules heq hbefore hcause =>
      -- the rules before it compile, so that compiling stops at this one
      have hcompile : set.compile = .error (.invalidRule rule.name cause) :=
        RuleSet.compile_eq_error_iff.mpr ⟨before, rule, behind, cause, heq, hbefore, hcause, rfl⟩
      have hne : set.rules ≠ [] := by simp [heq]
      rw [perform, loadParameters_of_ok hload, loadRules_of_ne_nil hrules hne, hcompile]
      rfl

variable (files overrides rules) in
/-- **A check can be made or it fails.** -/
theorem canCheck_or_checkFails (path : Option String) :
    (∃ fields set, CanCheck files path overrides rules fields set) ∨
      ∃ reason, CheckFails files path overrides rules reason := by
  -- step by step as a check is made: the first that fails gives the reason
  cases hload : Parameters.load files path overrides with
  | error e => exact .inr ⟨_, .parameters hload⟩
  | ok fields =>
      cases hrules : ruleSetOf files rules with
      | error e => exact .inr ⟨_, .rules hload hrules⟩
      | ok set =>
          by_cases hnil : set.rules = []
          · exact .inr ⟨_, .noRules hload hrules hnil⟩
          cases hcompile : set.compile with
          | ok compiled =>
              have hparses := RuleSet.exists_compile_iff.mp ⟨compiled, hcompile⟩
              exact .inl ⟨fields, set, hload, hrules, hnil, hparses⟩
          | error e =>
              obtain ⟨before, rule, behind, cause, heq, hbefore, hcause, -⟩ :=
                RuleSet.compile_eq_error_iff.mp hcompile
              exact .inr ⟨_, .malformed hload hrules heq hbefore hcause⟩

end

/-! ## Evaluating a condition by itself -/

section

variable {files : Files} {environment asked : Option String} {overrides : List Assignment}
  {condition : String}

theorem perform_eval_of_ok {fields : Fields} {c : Condition}
    (hload : Parameters.load files (Parameters.path asked environment) overrides = .ok fields)
    (hc : Condition.parse condition = .ok c) :
    perform files environment (.eval condition asked overrides) =
      .ok [truthText (c.holds (some (.object fields)))] := by
  rw [perform, loadParameters_of_ok hload]
  simp only [bind, Except.bind, evalCondition, hc]

/-- An evaluation needs the parameters and the condition, and nothing else. -/
theorem exists_perform_eval_iff :
    (∃ lines, perform files environment (.eval condition asked overrides) = .ok lines) ↔
      (∃ fields, Parameters.load files (Parameters.path asked environment) overrides = .ok fields) ∧
        ∃ c, Condition.parse condition = .ok c := by
  constructor
  · rintro ⟨lines, h⟩
    rw [perform] at h
    obtain ⟨fields, hfields, heval⟩ := bind_eq_ok_iff.mp h
    cases hload : Parameters.load files (Parameters.path asked environment) overrides with
    | error e =>
        rw [loadParameters_of_error hload] at hfields
        cases hfields
    | ok fields' =>
        refine ⟨⟨fields', rfl⟩, ?_⟩
        cases hc : Condition.parse condition with
        | ok c => exact ⟨c, rfl⟩
        | error cause =>
            rw [evalCondition, hc] at heval
            cases heval
  · rintro ⟨⟨fields, hload⟩, c, hc⟩
    exact ⟨_, perform_eval_of_ok hload hc⟩

end

/-! ## The law -/

/-- Does the condition hold with these parameters? A malformed one does not. -/
def holdsWith (fields : Fields) (condition : String) : Bool :=
  match Condition.parse condition with
  | .ok c => c.holds (some (.object fields))
  | .error _ => false

/-- The line of a rule tells whether its own condition holds. -/
theorem map_outcomeLine {set : RuleSet} {compiled : CompiledSet}
    (h : set.compile = .ok compiled) (fields : Fields) :
    (compiled.evaluate (.object fields)).map outcomeLine =
      set.rules.map fun rule => rule.name ++ ": " ++ truthText (holdsWith fields rule.condition) := by
  -- an outcome is made by evaluating the rule by itself
  have htruth : ∀ rule : Rule,
      (rule.outcome (.object fields)).matched = holdsWith fields rule.condition := by
    intro rule
    unfold Rule.outcome holdsWith
    cases Condition.parse rule.condition with
    | error cause => rfl
    | ok c => rfl
  rw [RuleSet.evaluate_eq_map h, List.map_map]
  refine List.map_congr_left fun rule _ => ?_
  exact congrArg (fun b => rule.name ++ ": " ++ truthText b) (htruth rule)

/-- **To check is to evaluate each rule, or to print nothing.** A call that checks a rule file succeeds
just if the parameters and the file can be loaded, there is a rule, and all conditions can be parsed; it
prints each rule's name with what evaluating its condition by itself prints. Otherwise it fails with the
first thing that is wrong. An evaluation, too, prints nothing unless the parameters can be loaded and the
condition parsed. Where the environment cannot be set up no call begins. -/
theorem check_all_or_nothing (files : Files) (inherited : Dotenv.Environment) (rules : String)
    (asked : Option String) {texts : List String} {overrides : List Assignment}
    (htexts : List.Forall₂ (fun text a => Assignment.ofText text = .ok a) texts overrides) :
    (environment? files inherited = none →
      answer files inherited (checkCall rules asked texts) = .aborted) ∧
    ∀ environment, environment? files inherited = some environment →
      let path := Parameters.path asked (environment Parameters.pathVariable)
      let checked := answer files inherited (checkCall rules asked texts)
      let evaluated := fun condition => answer files inherited (evalCall condition asked texts)
      (checked.code = 0 ↔ ∃ fields set, CanCheck files path overrides rules fields set) ∧
      (∀ fields set, CanCheck files path overrides rules fields set → ∃ truth : Rule → Bool,
        (∀ rule ∈ set.rules, evaluated rule.condition = .printed [truthText (truth rule)]) ∧
        checked = .printed (set.rules.map fun rule => rule.name ++ ": " ++ truthText (truth rule))) ∧
      (checked.code ≠ 0 → checked.code = 1 ∧ checked.output = "") ∧
      (∀ reason, checked.reason? = some reason ↔ CheckFails files path overrides rules reason) ∧
      ∀ condition,
        ((evaluated condition).code = 0 ↔
          (∃ fields, Parameters.load files path overrides = .ok fields) ∧
            ∃ c, Condition.parse condition = .ok c) ∧
        ((evaluated condition).code ≠ 0 →
          (evaluated condition).code = 1 ∧ (evaluated condition).output = "") := by
  have hcheck := readArguments_checkCall htexts rules asked
  have heval := fun condition => readArguments_evalCall htexts condition asked
  refine ⟨fun hnone => by rw [answer, hnone], fun environment henv => ?_⟩
  refine ⟨?_, ?_, ?_, ?_, ?_⟩
  · -- whatever stands in the way of the check makes it fail
    rw [code_answer_eq_zero_iff henv hcheck]
    constructor
    · rintro ⟨lines, hlines⟩
      rcases canCheck_or_checkFails files overrides rules _ with h | ⟨reason, h⟩
      · exact h
      · rw [perform_of_checkFails h] at hlines
        cases hlines
    · rintro ⟨fields, set, h⟩
      obtain ⟨compiled, -, hlines⟩ := perform_of_canCheck h
      exact ⟨_, hlines⟩
  · -- the line of each rule, and the line that evaluating its condition prints
    intro fields set h
    obtain ⟨compiled, hcompile, hlines⟩ := perform_of_canCheck h
    refine ⟨fun rule => holdsWith fields rule.condition, fun rule hrule => ?_, ?_⟩
    · obtain ⟨c, hc⟩ := h.parses rule hrule
      have hlines := answer_eq_of_ok henv (heval rule.condition) (perform_eval_of_ok h.parameters hc)
      simp only [holdsWith, hc, hlines]
    · rw [← map_outcomeLine hcompile]
      exact answer_eq_of_ok henv hcheck hlines
  · exact answer_of_code_ne_zero henv hcheck
  · -- either the check can be made or it fails, so no other reason is told
    intro reason
    rw [reason?_answer_eq_iff henv hcheck]
    refine ⟨fun hreason => ?_, perform_of_checkFails⟩
    rcases canCheck_or_checkFails files overrides rules _ with ⟨fields, set, h⟩ | ⟨reason', h⟩
    · obtain ⟨compiled, -, hlines⟩ := perform_of_canCheck h
      rw [hlines] at hreason
      cases hreason
    · rw [perform_of_checkFails h] at hreason
      cases hreason
      exact h
  · intro condition
    refine ⟨?_, answer_of_code_ne_zero henv (heval condition)⟩
    rw [code_answer_eq_zero_iff henv (heval condition), exists_perform_eval_iff]

/-- A parameter file, and a rule file whose second rule is malformed. -/
def malformedRuleFiles : Files := fun path =>
  if path = "values.yaml" then some "x: 1\ny: abc\n"
  else if path = "rules.yaml" then
    some "rules:\n- name: first\n  when: '%x == %y'\n- name: second\n  when: 1 2 3\n"
  else none

/-- The first rule could be evaluated, but nothing is printed of it. -/
theorem check_all_or_nothing_malformed :
    List.Forall₂ (fun text a => Assignment.ofText text = .ok a) ["y="] [⟨"y", .text ""⟩] ∧
      (answer malformedRuleFiles (fun _ => none)
        (checkCall "rules.yaml" (some "values.yaml") ["y="])).reason? =
          some (ruleFailure "second" .malformedOperands) := by
  have hname : IsName "y" := ⟨by decide, by decide, by decide⟩
  have htexts : List.Forall₂ (fun text a => Assignment.ofText text = .ok a) ["y="]
      [⟨"y", .text ""⟩] := .cons (ofText_assignment hname "") .nil
  refine ⟨htexts, ?_⟩
  have henv := environment?_of_none (show malformedRuleFiles environmentFile = none from rfl)
    (fun _ => none)
  have hlaw := (check_all_or_nothing malformedRuleFiles (fun _ => none) "rules.yaml"
    (some "values.yaml") htexts).2 _ henv
  refine (hlaw.2.2.2.1 _).mpr ?_
  obtain ⟨fields, hload⟩ := (exists_ok_iff (Parameters.load malformedRuleFiles
    (some "values.yaml") [⟨"y", .text ""⟩])).mpr (by decide +kernel)
  have hrules : ruleSetOf malformedRuleFiles "rules.yaml" =
      .ok ⟨none, none, [⟨"first", "%x == %y", none⟩, ⟨"second", "1 2 3", none⟩]⟩ :=
    eq_ok_of_toOption (by decide +kernel)
  obtain ⟨c, hc⟩ := (exists_ok_iff (Condition.parse "%x == %y")).mpr (by decide +kernel)
  have hcause : Condition.parse "1 2 3" = .error .malformedOperands :=
    (eq_malformedOperands_iff _).mpr (by decide +kernel)
  have hsplit : [⟨"first", "%x == %y", none⟩, ⟨"second", "1 2 3", none⟩] =
      [Rule.mk "first" "%x == %y" none] ++ Rule.mk "second" "1 2 3" none :: [] := rfl
  have hfirst : ∀ r ∈ [Rule.mk "first" "%x == %y" none],
      ∃ c, Condition.parse r.condition = .ok c := by
    intro r hr
    obtain rfl := List.mem_singleton.mp hr
    exact ⟨c, hc⟩
  have hfails := CheckFails.malformed hload hrules hsplit hfirst hcause
  exact hfails

/-- A rule file with one rule, and an environment file that would give a variable a value with a zero
character in it. -/
def unsetFiles : Files := fun path =>
  if path = "rules.yaml" then some "rules:\n- name: first\n  when: 1 == 1\n"
  else if path = ".env" then some "A=a\x00b"
  else none

/-- Nothing stands in the way of the check, and still it is not made. -/
theorem check_aborted_by_environment :
    (∃ fields set, CanCheck unsetFiles none [] "rules.yaml" fields set) ∧
      (answer unsetFiles (fun _ => none) (checkCall "rules.yaml" none [])).code = 101 := by
  have hrules : ruleSetOf unsetFiles "rules.yaml" = .ok ⟨none, none, [⟨"first", "1 == 1", none⟩]⟩ :=
    eq_ok_of_toOption (by decide +kernel)
  have hparses : ∀ r ∈ [Rule.mk "first" "1 == 1" none],
      ∃ c, Condition.parse r.condition = .ok c := by
    intro r hr
    obtain rfl := List.mem_singleton.mp hr
    exact (exists_ok_iff _).mpr (by decide +kernel)
  refine ⟨⟨[], _, rfl, hrules, nofun, hparses⟩, ?_⟩
  have hfile : unsetFiles environmentFile = some "A=a\x00b" := rfl
  have hline : Dotenv.line? (fun _ => none) "A=a\x00b".toList = some (some ("A", "a\x00b")) := by
    decide +kernel
  have henv : environment? unsetFiles (fun _ => none) = none := by
    rw [environment?, hfile, Option.getD_some, Dotenv.load?_of_notMem (by decide), Dotenv.load?.go,
      hline]
    rfl
  rw [answer, henv]
  rfl

end Criterion.CommandLine
