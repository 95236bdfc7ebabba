import Criterion.Proofs.Decimal.Integers
import Criterion.Proofs.Yaml.BareWord

/-!
# Integers as YAML scalars

An integer of 64 bits is read as that integer. One of 128 bits at most is not read at all, and a longer
one is read as the float that is nearest to it, or as a text where that is out of range.
-/

namespace Criterion.Yaml

/-- Does the integer fit a word of 64 bits, signed or unsigned? -/
abbrev Fits64 (n : Int) : Prop := -9223372036854775808 ≤ n ∧ n < 18446744073709551616

/-- Does the integer fit a word of 128 bits, signed or unsigned? -/
abbrev Fits128 (n : Int) : Prop :=
  -Decimal.signedBound128 ≤ n ∧ n < 2 * Decimal.signedBound128

/-- The float that is nearest to an integer; none if that is out of range. -/
def nearestFloat? (n : Int) : Option Binary64 := Binary64.nearest? (decide (n < 0)) n.natAbs 0

/-! ## The integer that a text denotes -/

theorem hexValue?_of_isDigit {c : Char} (h : c.isDigit = true) :
    hexValue? c = some (c.toNat - '0'.toNat) := by
  rw [hexValue?, if_pos h]

theorem digit_lt_ten {c : Char} (h : c.isDigit = true) : c.toNat - '0'.toNat < 10 := by
  rw [Char.isDigit, Bool.and_eq_true, decide_eq_true_eq, decide_eq_true_eq] at h
  have hhigh : c.toNat ≤ 57 := h.2
  have hzero : '0'.toNat = 48 := rfl
  omega

/-- Read one by one, digits make the number that they write. -/
theorem foldlM_digits {cs : List Char} (h : ∀ c ∈ cs, c.isDigit = true) (value : Nat) :
    cs.foldlM (fun value c =>
      (hexValue? c).bind fun d => if d < 10 then some (10 * value + d) else none) value =
        some (Nat.ofDigitChars 10 cs value) := by
  induction cs generalizing value with
  | nil => rfl
  | cons c cs ih =>
      have hc : c.isDigit = true := h c List.mem_cons_self
      rw [List.foldlM_cons, hexValue?_of_isDigit hc, Option.bind_some, if_pos (digit_lt_ten hc),
        Nat.ofDigitChars_cons]
      exact ih (fun d hd => h d (List.mem_cons_of_mem _ hd)) _

theorem digitsValue?_toDigits (n : Nat) : digitsValue? 10 (Nat.toDigits 10 n) = some n := by
  have hne : (Nat.toDigits 10 n).isEmpty = false := by simp
  rw [digitsValue?, hne, if_neg Bool.false_ne_true, foldlM_digits isDigit_of_mem_toDigits,
    Nat.ofDigitChars_ten_toDigits]

theorem markedValue?_toDigits (n : Nat) : markedValue? (Nat.toDigits 10 n) = none := by
  -- the mark of a base would be the second character, and is no digit
  have hmark : ∀ {c : Char} {ds : List Char}, Nat.toDigits 10 n = '0' :: c :: ds → False :=
    fun heq => nomatch eq_nil_of_toDigits_eq_zero_cons heq
  unfold markedValue?
  split
  · next heq => exact (hmark heq).elim
  · next heq => exact (hmark heq).elim
  · next heq => exact (hmark heq).elim
  · rfl

theorem isSigned_toDigits (n : Nat) : isSigned (Nat.toDigits 10 n) = false := by
  cases hds : Nat.toDigits 10 n with
  | nil => rfl
  | cons d ds =>
      have hdigit : d.isDigit = true := isDigit_of_mem_toDigits d (hds ▸ List.mem_cons_self)
      rw [isSigned, List.head?_cons, Option.any_some, Bool.or_eq_false_iff, beq_eq_false_iff_ne,
        beq_eq_false_iff_ne]
      constructor
      · rintro rfl
        cases hdigit
      · rintro rfl
        cases hdigit

theorem unsignedPart_integerChars (n : Int) :
    unsignedPart (integerChars n) = Nat.toDigits 10 n.natAbs := by
  rw [integerChars, minusSign]
  split
  · rfl
  · rw [List.nil_append, unsignedPart, isSigned_toDigits, if_neg Bool.false_ne_true]

theorem hasExtraZero_integerChars (n : Int) : hasExtraZero (integerChars n) = false := by
  rw [hasExtraZero, unsignedPart_integerChars]
  split
  · next heq => exact nomatch eq_nil_of_toDigits_eq_zero_cons heq
  · rfl

theorem integerOf?_integerChars (n : Int) : integerOf? (integerChars n) = some n := by
  rw [integerOf?, Decimal.splitSign_integerChars]
  dsimp only
  rw [markedValue?_toDigits, hasExtraZero_integerChars, if_neg Bool.false_ne_true,
    digitsValue?_toDigits, Option.map_some, Decimal.signed_natAbs]

/-- The bounds of 64 and of 128 bits decide. -/
theorem readInteger_integerChars (n : Int) : readInteger (integerChars n) =
    if Fits64 n then .fits n else if Fits128 n then .tooLong else .notInteger := by
  rw [readInteger, integerOf?_integerChars]

/-! ## The float that a text denotes -/

/-- Digits alone are a float too, without a point and without an exponent. -/
theorem finiteFloat?_integerChars (n : Int) : finiteFloat? (integerChars n) = nearestFloat? n := by
  have hsplit : splitWhile Char.isDigit (Nat.toDigits 10 n.natAbs) =
      (Nat.toDigits 10 n.natAbs, []) := by
    rw [splitWhile, List.takeWhile_eq_self_iff.mpr isDigit_of_mem_toDigits,
      List.dropWhile_eq_nil_iff.mpr isDigit_of_mem_toDigits]
  have hne : (Nat.toDigits 10 n.natAbs).isEmpty = false := by simp
  rw [finiteFloat?, Decimal.splitSign_integerChars]
  simp only [hsplit, hne, Bool.false_and, Bool.false_eq_true, if_false, floatExponent?,
    List.append_nil, Nat.ofDigitChars_ten_toDigits, List.length_nil]
  rfl

theorem isSpecialFloat_toString (n : Int) : isSpecialFloat (toString n) = false := by
  have hspecial : ∀ text ∈ [".inf", ".Inf", ".INF", "+.inf", "+.Inf", "+.INF", "-.inf", "-.Inf",
      "-.INF", ".nan", ".NaN", ".NAN"], text.toList.all isIntegerChar = false := by decide
  rw [isSpecialFloat, List.contains_eq_mem, decide_eq_false_iff_not]
  exact fun hmem => toString_ne (hspecial _ hmem) n rfl

theorem head?_integerChars_ne (n : Int) {c : Char} (h : isIntegerChar c = false) :
    (integerChars n).head? ≠ some c := fun heq =>
  notMem_integerChars h n (List.mem_of_head? heq)

/-- As a float it is the nearest one: it has no plus sign and is none of the special floats. -/
theorem floatOf?_toString (n : Int) :
    floatOf? (toString n) = (nearestFloat? n).map fun x => .number (.float x) := by
  have hhead : ((integerChars n).head? == some '+') = false :=
    beq_eq_false_iff_ne.mpr (head?_integerChars_ne n (by decide))
  have hplus : behind? ['+'] (integerChars n) = none := by
    obtain ⟨c, cs, hcs⟩ := List.exists_cons_of_ne_nil (integerChars_ne_nil n)
    have hne : ('+' == c) = false := beq_eq_false_iff_ne.mpr fun heq =>
      head?_integerChars_ne n (show isIntegerChar '+' = false by decide) (by rw [hcs, heq]; rfl)
    rw [behind?, hcs, List.isPrefixOf, hne]
    rfl
  rw [floatOf?, isSpecialFloat_toString, if_neg Bool.false_ne_true, toList_toString]
  simp only [hplus, hhead, Option.getD_none, Bool.false_and, Bool.false_eq_true, if_false,
    finiteFloat?_integerChars]

/-! ## The datum -/

/-- The text of an integer is one bare word: a minus sign stands in front of a digit. -/
theorem isBareWord_integerChars (n : Int) : IsBareWord (integerChars n) where
  allowed := all_integerChars (by decide) n
  noGap := fun c hc => by
    have hall : integerAlphabet.all (fun c => !isGap c) = true := by decide
    simpa using all_integerChars hall n c hc
  noColon := notMem_integerChars (by decide) n
  first := fun c hc => by
    have hall : integerAlphabet.all (fun c => !Layout.isIndicator c && c != '\uFEFF') = true := by decide
    simpa using all_integerChars hall n c (List.mem_of_head? hc)
  notMark := fun hmem => by
    have hmarks : ∀ mark ∈ [[], ['-'], ['?'], ['-', '-', '-'], ['.', '.', '.']],
        mark.any Char.isDigit = false := by decide
    obtain ⟨d, ds, hds⟩ := List.exists_cons_of_ne_nil (Nat.toDigits_ne_nil (n := n.natAbs) (b := 10))
    have hd : d ∈ Nat.toDigits 10 n.natAbs := hds ▸ List.mem_cons_self
    have hany : (integerChars n).any Char.isDigit = true :=
      List.any_eq_true.mpr ⟨d, List.mem_append.mpr (.inr hd), isDigit_of_mem_toDigits d hd⟩
    rw [hmarks _ hmem] at hany
    cases hany

/-- The datum that the text of an integer is read as. -/
def integerDatum? (n : Int) : Option Datum :=
  if Fits64 n then some (.number (.integer n))
  else if Fits128 n then none
  else some (((nearestFloat? n).map fun x => .number (.float x)).getD (.text (toString n)))

/-- It is no spelling of null or of a truth value, so that its length decides. -/
theorem plainDatum?_toString (n : Int) : plainDatum? (toString n) = integerDatum? n := by
  have hempty : (toString n).isEmpty = false := Bool.eq_false_iff.mpr fun h => by
    have hnil := congrArg String.toList (String.isEmpty_iff.mp h)
    rw [toList_toString] at hnil
    exact integerChars_ne_nil n hnil
  have hne : ∀ {text : String}, text.toList.all isIntegerChar = false → (toString n == text) = false :=
    fun h => beq_eq_false_iff_ne.mpr (toString_ne h n)
  have hnull : isNullSpelling (toString n) = false := by
    rw [isNullSpelling, hne (by decide), hne (by decide), hne (by decide), hne (by decide)]
    rfl
  have hbool : boolOf? (toString n) = none := by
    simp only [boolOf?, hne (show "true".toList.all isIntegerChar = false by decide),
      hne (show "True".toList.all isIntegerChar = false by decide),
      hne (show "TRUE".toList.all isIntegerChar = false by decide),
      hne (show "false".toList.all isIntegerChar = false by decide),
      hne (show "False".toList.all isIntegerChar = false by decide),
      hne (show "FALSE".toList.all isIntegerChar = false by decide), Bool.or_false,
      Bool.false_eq_true, if_false]
  rw [plainDatum?, hempty, hnull, hbool, toList_toString, readInteger_integerChars,
    hasExtraZero_integerChars, floatOf?_toString, integerDatum?]
  simp only [Bool.or_false, Bool.false_eq_true, if_false]
  split_ifs <;> rfl

end Criterion.Yaml

namespace Criterion

/-- **What the text of an integer is read as hangs on its length alone.** -/
theorem Datum.ofYaml?_toString (n : Int) : Datum.ofYaml? (toString n) = Yaml.integerDatum? n := by
  rw [Datum.ofYaml?_of_isBareWord (by rw [toList_toString]; exact Yaml.isBareWord_integerChars n),
    Yaml.plainDatum?_toString]

end Criterion
