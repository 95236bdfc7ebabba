import Criterion.CommandLine.Arguments
import Criterion.Proofs.Assignments
import Mathlib.Data.List.Forall2

/-!
# How commands are called

Any value can be given to an option by attaching it to the option's name: `--expr=-1 == %n`. A value on
its own is taken as it stands if it does not look like an option.
-/

namespace Criterion.CommandLine

/-! ## Arguments -/

/-- The argument that names an option. -/
def named (key : Key) : String := "--" ++ key.long

/-- The argument that gives an option a value. -/
def attached (key : Key) (value : String) : String := "--" ++ key.long ++ "=" ++ value

theorem exists_long_eq_cons (key : Key) : ∃ c cs, key.long.toList = c :: cs := by
  cases key <;> exact ⟨_, _, rfl⟩

theorem equals_notMem_long (key : Key) : '=' ∉ key.long.toList := by
  cases key <;> decide

theorem splitEquals_append {name : List Char} (h : '=' ∉ name) {rest : List Char}
    (hrest : rest.takeWhile (· != '=') = []) :
    splitEquals (name ++ rest) = (String.ofList name, (splitEquals rest).2) := by
  have hall : ∀ c ∈ name, (c != '=') = true := fun c hc => by
    simpa using fun heq : c = '=' => h (heq ▸ hc)
  rw [splitEquals, List.takeWhile_append_of_pos hall, List.dropWhile_append_of_pos hall, hrest,
    List.append_nil]
  rfl

/-- The name of an option is read back. -/
theorem ofText_named (key : Key) : Argument.ofText (named key) = .long key.long none := by
  obtain ⟨c, cs, hlong⟩ := exists_long_eq_cons key
  have htext : (named key).toList = '-' :: '-' :: key.long.toList := by simp [named]
  have hnil : ([] : List Char).takeWhile (· != '=') = [] := rfl
  have hsplit := splitEquals_append (equals_notMem_long key) hnil
  rw [List.append_nil, String.ofList_toList] at hsplit
  rw [Argument.ofText, htext, hlong]
  show Argument.long (splitEquals (c :: cs)).1 (splitEquals (c :: cs)).2 = _
  rw [← hlong, hsplit]
  rfl

/-- So is one with a value attached to it, which may hold equals signs and dashes. -/
theorem ofText_attached (key : Key) (value : String) :
    Argument.ofText (attached key value) = .long key.long (some value) := by
  obtain ⟨c, cs, hlong⟩ := exists_long_eq_cons key
  have htext : (attached key value).toList = '-' :: '-' :: (key.long.toList ++ '=' :: value.toList) := by
    simp [attached]
  -- the name holds no equals sign, so that the first one is the one behind it
  have hsplit : splitEquals (key.long.toList ++ '=' :: value.toList) = (key.long, some value) := by
    rw [splitEquals_append (equals_notMem_long key) rfl, String.ofList_toList]
    show (key.long, some (String.ofList value.toList)) = _
    rw [String.ofList_toList]
  rw [Argument.ofText, htext]
  rw [hlong] at hsplit ⊢
  show Argument.long (splitEquals (c :: cs ++ _)).1 (splitEquals (c :: cs ++ _)).2 = _
  rw [hsplit]

/-- Only what begins with a dash and goes on is taken for an option. -/
theorem ofText_eq_plain {text : String} (h : text.toList.head? ≠ some '-') :
    Argument.ofText text = .plain text := by
  rw [Argument.ofText]
  split
  · next heq => simp [heq] at h
  · next heq => simp [heq] at h
  · next heq => simp [heq] at h
  · rfl

theorem find?_long {verb : Verb} {key : Key} (h : key ∈ verb.keys) :
    (verb.keys.find? (·.long == key.long)) = some key := by
  revert h
  cases verb <;> cases key <;> decide

/-! ## Assignments -/

/-- A name that assignments can give values to. -/
structure IsName (name : String) : Prop where
  noEquals : '=' ∉ name.toList
  trimmed : trimBlanks name.toList = name.toList
  ne_nil : name.toList ≠ []

theorem ofText_assignment {name : String} (h : IsName name) (text : String) :
    Assignment.ofText (name ++ "=" ++ text) = .ok ⟨name, Assignment.valueOfText text⟩ := by
  have hblank : isBlankText name = false := by
    rw [← isEmpty_trimBlanks, h.trimmed]
    exact List.isEmpty_eq_false_iff.mpr h.ne_nil
  have htrim : trim name = name := by rw [trim, h.trimmed, String.ofList_toList]
  rw [Assignment.ofText_append h.noEquals, hblank, if_neg Bool.false_ne_true, htrim]

/-! ## Options and their values -/

/-- An attached value is taken whatever it looks like. -/
theorem readOptions_attached {verb : Verb} {key : Key} (h : key ∈ verb.keys) {value : String}
    {values values' : Values} (hset : values.set? key value = some values') (args : List String) :
    readOptions verb none values (attached key value :: args) = readOptions verb none values' args := by
  have hhelp : (Argument.long key.long (some value)).asksHelp = false := by cases key <;> rfl
  rw [readOptions, ofText_attached]
  simp only [hhelp, Bool.false_eq_true, if_false, reduceCtorEq, Argument.key?, find?_long h,
    Option.map_some, hset]

/-- A value on its own is taken unless it begins with a dash. -/
theorem readOptions_named {verb : Verb} {key : Key} (h : key ∈ verb.keys) {value : String}
    (hvalue : value.toList.head? ≠ some '-') {values values' : Values}
    (hset : values.set? key value = some values') (args : List String) :
    readOptions verb none values (named key :: value :: args) = readOptions verb none values' args := by
  have hhelp : (Argument.long key.long none).asksHelp = false := by cases key <;> rfl
  rw [readOptions, ofText_named]
  simp only [hhelp, Bool.false_eq_true, if_false, reduceCtorEq, Argument.key?, find?_long h,
    Option.map_some]
  rw [readOptions, ofText_eq_plain hvalue]
  simp only [hset]

theorem Values.set?_override {text : String} {a : Assignment} (h : Assignment.ofText text = .ok a)
    (values : Values) :
    values.set? .override text = some { values with overrides := a :: values.overrides } := by
  rw [set?, h]

/-- Overrides are taken up one after the other. -/
theorem readOptions_overrides {verb : Verb} (h : Key.override ∈ verb.keys) {texts : List String}
    {overrides : List Assignment}
    (htexts : List.Forall₂ (fun text a => Assignment.ofText text = .ok a) texts overrides)
    (values : Values) :
    readOptions verb none values (texts.map (attached .override)) =
      finish verb { values with overrides := overrides.reverse ++ values.overrides } := by
  -- along the overrides, with the values that the options have when each is read
  induction htexts generalizing values with
  | nil => rfl
  | @cons text a texts overrides htext _ ih =>
      rw [List.map_cons, readOptions_attached h (values.set?_override htext), ih]
      simp

/-- So they are where each is an argument of its own. -/
theorem readOptions_spaced_overrides {verb : Verb} (h : Key.override ∈ verb.keys)
    {texts : List String} {overrides : List Assignment}
    (htexts : List.Forall₂ (fun text a => Assignment.ofText text = .ok a) texts overrides)
    (hplain : ∀ text ∈ texts, text.toList.head? ≠ some '-') (values : Values) :
    readOptions verb none values (texts.flatMap (["--set", ·])) =
      finish verb { values with overrides := overrides.reverse ++ values.overrides } := by
  induction htexts generalizing values with
  | nil => rfl
  | @cons text a texts overrides htext _ ih =>
      have htail := fun t ht => hplain t (List.mem_cons_of_mem text ht)
      show readOptions verb none values
        (named .override :: text :: texts.flatMap (["--set", ·])) = _
      rw [readOptions_named h (hplain text List.mem_cons_self) (values.set?_override htext), ih htail]
      simp

/-! ## Whole calls -/

/-- The arguments that name a parameter file, if there is one, and give overrides. -/
def parameterArguments (asked : Option String) (overrides : List String) : List String :=
  (asked.map (attached .parameters)).toList ++ overrides.map (attached .override)

/-- A parameter file may be named once, in front of all overrides. -/
theorem readOptions_parameterArguments {verb : Verb} (hp : Key.parameters ∈ verb.keys)
    (ho : Key.override ∈ verb.keys) (asked : Option String) {texts : List String}
    {overrides : List Assignment}
    (htexts : List.Forall₂ (fun text a => Assignment.ofText text = .ok a) texts overrides)
    {values : Values} (hfirst : values.parameters = none) :
    readOptions verb none values (parameterArguments asked texts) =
      finish verb { values with
        parameters := asked
        overrides := overrides.reverse ++ values.overrides } := by
  cases asked with
  | none =>
      show readOptions verb none values (texts.map _) = _
      rw [readOptions_overrides ho htexts, ← hfirst]
  | some path =>
      -- no parameter file has been named before, so the place is free
      have hset : values.set? .parameters path = some { values with parameters := some path } := by
        rw [Values.set?, hfirst]
        rfl
      show readOptions verb none values (attached .parameters path :: texts.map _) = _
      rw [readOptions_attached hp hset, readOptions_overrides ho htexts]

/-- A call that evaluates a condition. -/
def evalCall (condition : String) (asked : Option String) (overrides : List String) : List String :=
  "eval" :: attached .condition condition :: parameterArguments asked overrides

/-- The call of an evaluation without a parameter file, with each value in an argument of its own. -/
def spacedCall (condition : String) (overrides : List String) : List String :=
  "eval" :: "--expr" :: condition :: overrides.flatMap (["--set", ·])

/-- A call that checks a rule file. -/
def checkCall (rules : String) (asked : Option String) (overrides : List String) : List String :=
  "check" :: attached .rules rules :: parameterArguments asked overrides

section

variable {texts : List String} {overrides : List Assignment}
  (htexts : List.Forall₂ (fun text a => Assignment.ofText text = .ok a) texts overrides)

include htexts

theorem readArguments_evalCall (condition : String) (asked : Option String) :
    readArguments (evalCall condition asked texts) = .run (.eval condition asked overrides) := by
  show readOptions .eval none {} (_ :: _) = _
  rw [readOptions_attached (show Key.condition ∈ Verb.eval.keys by decide) rfl]
  rw [readOptions_parameterArguments (by decide) (by decide) asked htexts rfl]
  simp [finish, Values.command?]

theorem readArguments_spacedCall {condition : String} (hcondition : condition.toList.head? ≠ some '-')
    (hplain : ∀ text ∈ texts, text.toList.head? ≠ some '-') :
    readArguments (spacedCall condition texts) = .run (.eval condition none overrides) := by
  have hkey : Key.condition ∈ Verb.eval.keys := by decide
  have hoverride : Key.override ∈ Verb.eval.keys := by decide
  have hrest := readOptions_spaced_overrides hoverride htexts hplain
    { condition := some condition }
  show readOptions .eval none {} (named .condition :: condition :: _) = _
  rw [readOptions_named hkey hcondition rfl, hrest]
  simp [finish, Values.command?]

theorem readArguments_checkCall (rules : String) (asked : Option String) :
    readArguments (checkCall rules asked texts) = .run (.check rules asked overrides) := by
  show readOptions .check none {} (_ :: _) = _
  rw [readOptions_attached (show Key.rules ∈ Verb.check.keys by decide) rfl]
  rw [readOptions_parameterArguments (by decide) (by decide) asked htexts rfl]
  simp [finish, Values.command?]

end

end Criterion.CommandLine
