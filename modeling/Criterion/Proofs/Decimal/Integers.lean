import Criterion.Operand.Literal
import Criterion.Proofs.Token.RoundTrip
import Mathlib.Data.List.Basic
import Mathlib.Data.List.TakeWhile
import Mathlib.Tactic.IntervalCases

/-!
# Integers in words

An integer is written with its digits, none of them a zero too many, and with a minus sign in front if
it is negative. Such a text is a word of a condition, and as a literal it is that integer as a decimal,
however long it is.
-/

namespace Criterion

/-! ## Digits -/

theorem isDigit_of_mem_toDigits {n : Nat} : ∀ c ∈ Nat.toDigits 10 n, c.isDigit = true :=
  fun _ hc => Nat.isDigit_of_mem_toDigits (by decide) (by decide) hc

theorem head?_toDigits_of_le {n : Nat} (h : 10 ≤ n) :
    (Nat.toDigits 10 n).head? = (Nat.toDigits 10 (n / 10)).head? := by
  rw [Nat.toDigits_eq_if (by decide), if_neg (by omega)]
  exact List.head?_append_of_ne_nil _ Nat.toDigits_ne_nil

/-- No zero stands in front of the digits of a positive number. -/
theorem head?_toDigits_ne_zero {n : Nat} (h : 0 < n) : (Nat.toDigits 10 n).head? ≠ some '0' := by
  -- by the number that is left when the last digit is taken off
  induction n using Nat.strong_induction_on with
  | _ n ih =>
      by_cases hlt : n < 10
      · rw [Nat.toDigits_of_lt_base hlt]
        interval_cases n <;> decide
      · rw [head?_toDigits_of_le (by omega)]
        exact ih (n / 10) (by omega) (by omega)

/-- A zero stands in front only where it is the whole of a number. -/
theorem eq_nil_of_toDigits_eq_zero_cons {n : Nat} {ds : List Char}
    (h : Nat.toDigits 10 n = '0' :: ds) : ds = [] := by
  rcases Nat.eq_zero_or_pos n with rfl | hpos
  · exact ((List.cons.inj h).2).symm
  · have hhead := head?_toDigits_ne_zero hpos
    rw [h] at hhead
    exact absurd rfl hhead

/-! ## The text of an integer -/

/-- The minus sign of a negative integer. -/
def minusSign (n : Int) : List Char := if n < 0 then ['-'] else []

/-- The characters of an integer's text. -/
def integerChars (n : Int) : List Char := minusSign n ++ Nat.toDigits 10 n.natAbs

@[simp] theorem toList_toString (n : Int) : (toString n).toList = integerChars n := by
  rw [Int.toString_eq_repr, integerChars, minusSign]
  cases n with
  | ofNat m =>
      rw [if_neg (by simp)]
      exact Nat.toList_repr
  | negSucc m =>
      rw [if_pos (Int.negSucc_lt_zero m)]
      show ("-" ++ (m + 1).repr).toList = _
      rw [String.toList_append, Nat.toList_repr]
      rfl

/-- Is the character one of those that integers are written with? -/
def isIntegerChar (c : Char) : Bool := c == '-' || c.isDigit

/-- All of these characters. -/
def integerAlphabet : List Char := ['-', '0', '1', '2', '3', '4', '5', '6', '7', '8', '9']

theorem mem_integerAlphabet {c : Char} (h : isIntegerChar c = true) : c ∈ integerAlphabet := by
  rw [isIntegerChar, Bool.or_eq_true, beq_iff_eq] at h
  rcases h with rfl | hdigit
  · decide
  · rw [Char.isDigit, Bool.and_eq_true, decide_eq_true_eq, decide_eq_true_eq] at hdigit
    have hlow : 48 ≤ c.toNat := hdigit.1
    have hhigh : c.toNat ≤ 57 := hdigit.2
    rw [← Char.ofNat_toNat c]
    generalize c.toNat = k at hlow hhigh
    interval_cases k <;> decide

/-- Integers are written with a minus sign and digits. -/
theorem isIntegerChar_of_mem {n : Int} : ∀ c ∈ integerChars n, isIntegerChar c = true := by
  intro c hc
  rw [isIntegerChar, Bool.or_eq_true, beq_iff_eq]
  rcases List.mem_append.mp hc with hc | hc
  · unfold minusSign at hc
    split at hc
    · exact .inl (List.mem_singleton.mp hc)
    · cases hc
  · exact .inr (isDigit_of_mem_toDigits c hc)

/-- What holds of every character of the alphabet holds of those of an integer. -/
theorem all_integerChars {p : Char → Bool} (h : integerAlphabet.all p = true) (n : Int) :
    ∀ c ∈ integerChars n, p c = true := fun c hc =>
  List.all_eq_true.mp h c (mem_integerAlphabet (isIntegerChar_of_mem c hc))

theorem integerChars_ne_nil (n : Int) : integerChars n ≠ [] :=
  List.append_ne_nil_of_right_ne_nil _ Nat.toDigits_ne_nil

/-- A character that no integer is written with is not in the text of one. -/
theorem notMem_integerChars {c : Char} (h : isIntegerChar c = false) (n : Int) :
    c ∉ integerChars n := fun hc => by
  rw [isIntegerChar_of_mem c hc] at h
  cases h

/-- A text with a character that no integer is written with is not the text of one. -/
theorem toString_ne {text : String} (h : text.toList.all isIntegerChar = false) (n : Int) :
    toString n ≠ text := by
  rintro rfl
  rw [toList_toString, List.all_eq_true.mpr isIntegerChar_of_mem] at h
  cases h

/-! ## An integer as a decimal -/

namespace Decimal

theorem splitSign_of_isDigit {c : Char} (h : c.isDigit = true) (cs : List Char) :
    splitSign (c :: cs) = (false, c :: cs) := by
  unfold splitSign
  split
  · next heq =>
    obtain ⟨rfl, -⟩ := List.cons.inj heq
    cases h
  · next heq =>
    obtain ⟨rfl, -⟩ := List.cons.inj heq
    cases h
  · rfl

/-- The minus sign is taken off, and nothing but it. -/
theorem splitSign_integerChars (n : Int) :
    splitSign (integerChars n) = (decide (n < 0), Nat.toDigits 10 n.natAbs) := by
  rw [integerChars, minusSign]
  split
  · next h =>
    rw [decide_eq_true h]
    rfl
  · next h =>
    rw [decide_eq_false h, List.nil_append]
    obtain ⟨d, ds, hds⟩ := List.exists_cons_of_ne_nil (Nat.toDigits_ne_nil (n := n.natAbs) (b := 10))
    rw [hds]
    exact splitSign_of_isDigit (isDigit_of_mem_toDigits d (hds ▸ List.mem_cons_self)) ds

theorem signed_natAbs (n : Int) : signed (decide (n < 0)) n.natAbs = n := by
  unfold signed
  split
  · next h =>
    have := of_decide_eq_true h
    omega
  · next h =>
    have := of_decide_eq_false (Bool.eq_false_iff.mpr h)
    omega

theorem magnitude?_toDigits (n : Nat) : magnitude? (Nat.toDigits 10 n) = some n := by
  obtain ⟨d, ds, hds⟩ := List.exists_cons_of_ne_nil (Nat.toDigits_ne_nil (n := n) (b := 10))
  have hhead : (Nat.toDigits 10 n).head?.any Char.isDigit = true := by
    rw [hds]
    exact isDigit_of_mem_toDigits d (hds ▸ List.mem_cons_self)
  have hall : (Nat.toDigits 10 n).all (fun c => c.isDigit || c == '_') = true :=
    List.all_eq_true.mpr fun c hc => by rw [isDigit_of_mem_toDigits c hc, Bool.true_or]
  have hfilter : (Nat.toDigits 10 n).filter Char.isDigit = Nat.toDigits 10 n :=
    List.filter_eq_self.mpr isDigit_of_mem_toDigits
  rw [magnitude?, hhead, hall, hfilter, Nat.ofDigitChars_ten_toDigits]
  rfl

/-- The sign and the digits are those of the integer. -/
theorem integer?_integerChars (n : Int) : integer? (integerChars n) = some n := by
  rw [integer?, splitSign_integerChars]
  dsimp only
  rw [magnitude?_toDigits, Option.map_some, signed_natAbs]

theorem splitExponent?_of_notMem {cs : List Char} (h : ∀ c ∈ cs, isExponentMark c = false) :
    splitExponent? cs = some (cs, 0) := by
  have hdrop : cs.dropWhile (fun c => !isExponentMark c) = [] :=
    List.dropWhile_eq_nil_iff.mpr fun c hc => by rw [h c hc]; rfl
  rw [splitExponent?, hdrop]

theorem splitPoint_of_notMem {cs : List Char} (h : '.' ∉ cs) : splitPoint cs = (cs, 0) := by
  have hne : ∀ c ∈ cs, (c != '.') = true := fun c hc => by
    simpa using fun heq : c = '.' => h (heq ▸ hc)
  rw [splitPoint, List.dropWhile_eq_nil_iff.mpr hne, List.takeWhile_eq_self_iff.mpr hne]
  simp

/-- **The text of an integer is read as that integer.** -/
theorem ofChars?_integerChars (n : Int) : ofChars? (integerChars n) = some (ofInt n) := by
  -- neither an exponent nor a point is split off
  have hexponent : ∀ c ∈ integerChars n, isExponentMark c = false := fun c hc => by
    by_contra hmark
    rw [Bool.not_eq_false, isExponentMark, Bool.or_eq_true, beq_iff_eq, beq_iff_eq] at hmark
    rcases hmark with rfl | rfl
    · exact notMem_integerChars (by decide) n hc
    · exact notMem_integerChars (by decide) n hc
  have hpoint : '.' ∉ integerChars n := notMem_integerChars (by decide) n
  simp only [ofChars?, splitExponent?_of_notMem hexponent, splitPoint_of_notMem hpoint,
    integer?_integerChars, bind, Option.bind]
  rfl

end Decimal

/-- **An integer that is given to a parameter is that integer.** -/
theorem Operand.ofDatum_integer (n : Int) : ofDatum (.number (.integer n)) = .decimal (.ofInt n) := by
  have hread : Decimal.ofText? (Number.integer n).toText = some (.ofInt n) := by
    rw [Number.toText, Decimal.ofText?, toList_toString, Decimal.ofChars?_integerChars]
  rw [ofDatum, hread]

/-! ## An integer as a word -/

/-- Every separator holds a character that no integer is written with. -/
theorem all_isIntegerChar_separator {s : List Char × Token} (hs : s ∈ Token.separators) :
    s.1.all isIntegerChar = false := by
  revert s
  decide

/-- The text of an integer is a word of a condition. -/
theorem Token.isWord_integerChars (n : Int) : Token.IsWord (integerChars n) where
  ne_nil := integerChars_ne_nil n
  noBlank := fun c hc => by
    have hall : integerAlphabet.all (fun c => !isBlank c) = true := by decide
    simpa using all_integerChars hall n c hc
  noSeparator := fun s hs hwithin => by
    have hall : s.1.all isIntegerChar = true :=
      List.all_eq_true.mpr fun c hc => isIntegerChar_of_mem c (hwithin.subset hc)
    rw [all_isIntegerChar_separator hs] at hall
    cases hall

/-- **A word that is the text of an integer is that integer.** -/
theorem Operand.ofWord_toString (n : Int) : Operand.ofWord (toString n) = .decimal (.ofInt n) := by
  have hblank : toString n ≠ blankSpelling := toString_ne (by decide) n
  have hnumeric : isNumeric (integerChars n) = true := by
    rw [isNumeric, Bool.and_eq_true, Bool.not_eq_true', List.isEmpty_eq_false_iff, List.all_eq_true]
    exact ⟨integerChars_ne_nil n, all_integerChars (by decide) n⟩
  -- no integer begins with a quote, nor with a percent sign
  have hquote : unquote? (integerChars n) = none := by
    unfold unquote?
    split
    · next heq => exact absurd (heq ▸ List.mem_cons_self) (notMem_integerChars (by decide) n)
    · rfl
  unfold ofWord
  rw [toList_toString]
  split
  · next heq => exact absurd (heq ▸ List.mem_cons_self) (notMem_integerChars (by decide) n)
  · rw [if_neg hblank, hquote, if_pos hnumeric, Decimal.ofChars?_integerChars]

end Criterion
