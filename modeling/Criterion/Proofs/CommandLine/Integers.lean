import Criterion.Proofs.CommandLine.Check
import Criterion.Proofs.Comparing
import Criterion.Proofs.Yaml.Integers

/-!
# Integers on the command line

The digits of an integer reach a comparison by two ways. In the condition they are a decimal, however
many they are. Given to a parameter they are read as YAML first, and there the integer is kept only if
it fits 64 bits; a longer one stays a text, or becomes the text of a float and may be kept by chance.
Integers that are kept are compared as integers.
-/

namespace Criterion.CommandLine

open Yaml (Fits64 Fits128 nearestFloat? integerDatum?)

/-! ## The parameter that an integer becomes -/

/-- The decimal that an integer becomes when it is given to a parameter, if it becomes one. -/
def parameterDecimal? (n : Int) : Option Decimal :=
  if Fits64 n then some (.ofInt n)
  else if Fits128 n then none
  else (nearestFloat? n).bind fun x => Decimal.ofText? x.toText

/-- Does an integer that is given to a parameter stay the number that it is? -/
def isKept (n : Int) : Bool := (parameterDecimal? n).any (·.sameNumber (.ofInt n))

theorem isKept_of_fits64 {n : Int} (h : Fits64 n) : isKept n = true := by
  rw [isKept, parameterDecimal?, if_pos h, Option.any_some, Decimal.sameNumber_iff]

theorem isKept_eq_false {n : Int} (h : ¬Fits64 n) (h128 : Fits128 n) : isKept n = false := by
  rw [isKept, parameterDecimal?, if_neg h, if_pos h128]
  rfl

theorem exists_decimal_of_isKept {n : Int} (h : isKept n = true) :
    ∃ d, parameterDecimal? n = some d ∧ d.value = n := by
  unfold isKept at h
  cases hd : parameterDecimal? n with
  | none => rw [hd] at h; cases h
  | some d =>
      rw [hd, Option.any_some, Decimal.sameNumber_iff, Decimal.value_ofInt] at h
      exact ⟨d, rfl, h⟩

/-- The operand that an integer becomes when it is given to a parameter. -/
def parameterOperand (n : Int) : Operand := .ofDatum (Assignment.valueOfText (toString n))

/-- The digits are read as YAML; where they cannot be, they stay a text. -/
theorem valueOfText_toString (n : Int) :
    Assignment.valueOfText (toString n) = (integerDatum? n).getD (.text (toString n)) := by
  have hblank : isBlankText (toString n) = false := by
    obtain ⟨c, cs, hcs⟩ := List.exists_cons_of_ne_nil (integerChars_ne_nil n)
    have hc : isBlank c = false :=
      (Token.isWord_integerChars n).noBlank c (hcs ▸ List.mem_cons_self)
    rw [isBlankText, toList_toString, hcs, List.all_cons, hc, Bool.false_and]
  rw [Assignment.valueOfText, hblank, if_neg Bool.false_ne_true, Datum.ofYaml?_toString]

theorem ofDatum_float (x : Binary64) : ∃ s, Operand.ofDatum (.number (.float x)) =
    ((Decimal.ofText? x.toText).map .decimal).getD (.text s) := by
  refine ⟨x.toText, ?_⟩
  rw [Operand.ofDatum, Number.toText]
  cases Decimal.ofText? x.toText <;> rfl

/-- The operand is that decimal, or a text. -/
theorem exists_parameterOperand_eq (n : Int) :
    ∃ s, parameterOperand n = ((parameterDecimal? n).map .decimal).getD (.text s) := by
  rw [parameterOperand, valueOfText_toString, integerDatum?, parameterDecimal?]
  -- of 64 bits, of 128 bits, and longer
  split_ifs
  · exact ⟨"", Operand.ofDatum_integer n⟩
  · exact ⟨toString n, rfl⟩
  · cases nearestFloat? n with
    | none => exact ⟨toString n, rfl⟩
    | some x => exact ofDatum_float x

theorem parameterOperand_of_isKept {n : Int} (h : isKept n = true) :
    ∃ d, parameterOperand n = .decimal d ∧ d.value = n := by
  obtain ⟨d, hd, hvalue⟩ := exists_decimal_of_isKept h
  obtain ⟨s, hs⟩ := exists_parameterOperand_eq n
  rw [hd] at hs
  exact ⟨d, hs, hvalue⟩

/-- Against the same digits in the condition it shows whether the integer is kept. -/
theorem equals_parameterOperand (n : Int) :
    (parameterOperand n).equals (.decimal (.ofInt n)) = isKept n := by
  obtain ⟨s, hs⟩ := exists_parameterOperand_eq n
  rw [hs, isKept]
  cases parameterDecimal? n with
  | none => rfl
  | some d => rfl

/-! ## The law -/

/-- A reference has the operand that the parameter's value becomes. -/
theorem resolve_reference {word name : String} (hword : Operand.ofWord word = .parameter name)
    {fields : Fields} {value : Datum} (h : fields.lookup name = some value) :
    (Operand.ofWord word).resolve (some (.object fields)) = .ofDatum value := by
  rw [hword, Operand.resolve, Datum.lookup, h]
  rfl

section

variable {files : Files} {inherited environment : Dotenv.Environment} {fields : Fields}
  (henv : environment? files inherited = some environment)
  (hfields : Parameters.ofFile files (environment Parameters.pathVariable) = .ok fields)

include henv hfields

/-- What evaluating one comparison of two words prints. -/
theorem answer_comparing {v w : String} (hv : Token.IsWord v.toList) (hw : Token.IsWord w.toList)
    (hdash : v.toList.head? ≠ some '-') (op : Relation) {texts : List String}
    {overrides : List Assignment}
    (htexts : List.Forall₂ (fun text a => Assignment.ofText text = .ok a) texts overrides)
    (hplain : ∀ text ∈ texts, text.toList.head? ≠ some '-') :
    let context := some (Datum.object (Parameters.assign fields overrides))
    answer files inherited (spacedCall (comparing v op.val w) texts) =
      .printed [truthText (op.val.apply ((Operand.ofWord v).resolve context)
        ((Operand.ofWord w).resolve context))] := by
  intro context
  -- the condition is an argument of its own, so that it may not begin with a dash
  have hhead : (comparing v op.val w).toList.head? ≠ some '-' := by
    obtain ⟨c, cs, hcs⟩ := List.exists_cons_of_ne_nil hv.ne_nil
    rw [hcs] at hdash
    simpa [comparing, hcs] using hdash
  have hload : Parameters.load files
      (Parameters.path none (environment Parameters.pathVariable)) overrides =
        .ok (Parameters.assign fields overrides) := by
    show Parameters.load files (environment Parameters.pathVariable) overrides = _
    rw [Parameters.load, hfields]
    rfl
  obtain ⟨c, hc, hholds⟩ := parse_comparing hv hw op
  rw [answer_eq_of_ok henv (readArguments_spacedCall htexts hhead hplain)
    (perform_eval_of_ok hload hc), hholds]

/-- A parameter that is given an integer, against the same digits in the condition. -/
theorem answer_digits (n : Int) :
    answer files inherited (spacedCall (comparing "%k" .eq (toString n)) ["k=" ++ toString n]) =
      .printed [truthText (isKept n)] := by
  have hname : IsName "k" := ⟨by decide, by decide, by decide⟩
  have htext : Assignment.ofText ("k=" ++ toString n) =
      .ok ⟨"k", Assignment.valueOfText (toString n)⟩ := ofText_assignment hname _
  have hword : Token.IsWord (toString n).toList := by
    rw [toList_toString]
    exact Token.isWord_integerChars n
  have hanswer := answer_comparing henv hfields (v := "%k") (by decide) hword
    (by decide) ⟨.eq, rfl⟩ (.cons htext .nil) (by simp)
  have hleft := resolve_reference (show Operand.ofWord "%k" = .parameter "k" by decide)
    (Fields.lookup_insert_self "k" (Assignment.valueOfText (toString n)) fields)
  rw [hanswer, Operand.ofWord_toString, ← equals_parameterOperand, parameterOperand, ← hleft]
  rfl

/-- Two parameters that are given integers. -/
theorem answer_parameters (op : Relation) (m n : Int) :
    answer files inherited
        (spacedCall (comparing "%a" op.val "%b") ["a=" ++ toString m, "b=" ++ toString n]) =
      .printed [truthText (op.val.apply (parameterOperand m) (parameterOperand n))] := by
  have ha : IsName "a" := ⟨by decide, by decide, by decide⟩
  have hb : IsName "b" := ⟨by decide, by decide, by decide⟩
  have htexts : List.Forall₂ (fun text a => Assignment.ofText text = .ok a)
      ["a=" ++ toString m, "b=" ++ toString n]
      [⟨"a", Assignment.valueOfText (toString m)⟩, ⟨"b", Assignment.valueOfText (toString n)⟩] :=
    .cons (ofText_assignment ha _) (.cons (ofText_assignment hb _) .nil)
  have hanswer := answer_comparing henv hfields (v := "%a") (w := "%b") (by decide) (by decide)
    (by decide) op htexts (by simp)
  -- the second parameter is put over the first, whose value it leaves alone
  have hleft := resolve_reference (show Operand.ofWord "%a" = .parameter "a" by decide)
    ((Fields.lookup_insert_of_ne (show "a" ≠ "b" by decide)
      (Assignment.valueOfText (toString n)) _).trans
        (Fields.lookup_insert_self "a" (Assignment.valueOfText (toString m)) fields))
  have hright := resolve_reference (show Operand.ofWord "%b" = .parameter "b" by decide)
    (Fields.lookup_insert_self "b" (Assignment.valueOfText (toString n))
      (fields.insert "a" (Assignment.valueOfText (toString m))))
  rw [hanswer, parameterOperand, parameterOperand, ← hleft, ← hright]
  rfl

/-- **Integers that are kept are compared as integers**, by each of the six comparisons; and of any
integer at all it can be seen by its own digits whether it is kept. All integers of 64 bits are, and
none that is longer and fits 128 bits. -/
theorem kept_integers_compare :
    (∀ n : Int, answer files inherited
        ["eval", "--expr", comparing "%k" .eq (toString n), "--set", "k=" ++ toString n] =
          .printed [truthText (isKept n)]) ∧
      (∀ (op : Relation) (m n : Int), isKept m = true → isKept n = true → answer files inherited
          ["eval", "--expr", comparing "%a" op.val "%b", "--set", "a=" ++ toString m,
            "--set", "b=" ++ toString n] =
          .printed [truthText (op.val.relates m n)]) ∧
      (∀ n : Int, Fits64 n → isKept n = true) ∧
      ∀ n : Int, ¬Fits64 n → Fits128 n → isKept n = false := by
  refine ⟨answer_digits henv hfields, fun op m n hm hn => ?_, fun n => isKept_of_fits64,
    fun n => isKept_eq_false⟩
  -- the decimals need not be written like the integers, but they denote them
  obtain ⟨d, hd, hdvalue⟩ := parameterOperand_of_isKept hm
  obtain ⟨e, he, hevalue⟩ := parameterOperand_of_isKept hn
  have hanswer := answer_parameters henv hfields op m n
  rw [hd, he, Operator.apply_decimal op.property, hdvalue, hevalue,
    Operator.relates_map Int.cast_strictMono] at hanswer
  exact hanswer

end

/-- No files at all. -/
def noFiles : Files := fun _ => none

/-- The greatest integers of 64 bits, whose texts are ordered the other way round. -/
theorem kept_integers_compare_limits :
    environment? noFiles (fun _ => none) = some (fun _ => none) ∧
      Parameters.ofFile noFiles none = .ok [] ∧
      isKept 18446744073709551615 = true ∧ isKept 9223372036854775807 = true ∧
      answer noFiles (fun _ => none)
        ["eval", "--expr", "%a > %b", "--set", "a=18446744073709551615", "--set",
          "b=9223372036854775807"] = .printed ["true"] := by
  have henv := environment?_of_none (show noFiles environmentFile = none from rfl) (fun _ => none)
  have hfields : Parameters.ofFile noFiles none = .ok [] := rfl
  obtain ⟨-, hcompare, hfits, -⟩ := kept_integers_compare henv hfields
  have hm : isKept 18446744073709551615 = true := hfits _ (by decide)
  have hn : isKept 9223372036854775807 = true := hfits _ (by decide)
  exact ⟨henv, hfields, hm, hn, hcompare ⟨.gt, rfl⟩ _ _ hm hn⟩

/-- The first integer that does not fit 64 bits is not equal to itself. -/
theorem longer_integer_not_kept :
    answer noFiles (fun _ => none)
      ["eval", "--expr", "%k == 18446744073709551616", "--set", "k=18446744073709551616"] =
        .printed ["false"] := by
  have henv := environment?_of_none (show noFiles environmentFile = none from rfl) (fun _ => none)
  have hkept : isKept 18446744073709551616 = false := isKept_eq_false (by decide) (by decide)
  have hanswer := answer_digits henv (show Parameters.ofFile noFiles none = .ok [] from rfl)
    18446744073709551616
  rw [hkept] at hanswer
  exact hanswer

end Criterion.CommandLine
