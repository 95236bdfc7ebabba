import Criterion.Proofs.Decimal.Integers
import Criterion.Proofs.Decimal.Order
import Mathlib.Tactic.Ring

/-!
# Numerals

A numeral is an ordinary decimal as it is written: maybe a minus sign, then digits, with at most one
point in front of them, between them or behind them. It denotes a number by the places of its digits.
Reading a decimal takes the point out and counts the digits behind it, so that a numeral is read as the
number that it denotes.

Among the texts of minus signs, points and digits, one more kind is read as a decimal. The point is
taken out before the sign is looked at, and so a minus sign directly behind a leading point comes to
stand in front, and is counted as one of the decimals: `.-5` is read as `-0.05`.
-/

namespace Criterion

/-- Digits only. -/
def IsDigits (cs : List Char) : Prop := ∀ c ∈ cs, c.isDigit = true

instance (cs : List Char) : Decidable (IsDigits cs) :=
  decidable_of_iff (cs.all Char.isDigit = true) List.all_eq_true

theorem IsDigits.append {cs ds : List Char} (hcs : IsDigits cs) (hds : IsDigits ds) :
    IsDigits (cs ++ ds) := fun c hc => (List.mem_append.mp hc).elim (hcs c) (hds c)

/-! ## The places of digits -/

/-- The number of a digit. -/
def digitValue (c : Char) : ℚ := (c.toNat - '0'.toNat : Nat)

/-- The number that digits in front of the point denote, each by the power of ten of its place. -/
def wholeValue : List Char → ℚ
  | [] => 0
  | c :: cs => digitValue c * 10 ^ cs.length + wholeValue cs

/-- The number that digits behind the point denote, each counting a tenth of what it would count one
place further to the left. -/
def fractionValue : List Char → ℚ
  | [] => 0
  | c :: cs => (digitValue c + fractionValue cs) / 10

/-- Digits that are read from left to right count by their places. -/
theorem cast_ofDigitChars (cs : List Char) : (Nat.ofDigitChars 10 cs 0 : ℚ) = wholeValue cs := by
  induction cs with
  | nil => rfl
  | cons c cs ih =>
      rw [Nat.ofDigitChars_cons, Nat.ofDigitChars_eq_ofDigitChars_zero, Nat.cast_add, ih, wholeValue,
        digitValue]
      push_cast
      ring

theorem wholeValue_append (cs ds : List Char) :
    wholeValue (cs ++ ds) = wholeValue cs * 10 ^ ds.length + wholeValue ds := by
  induction cs with
  | nil => simp [wholeValue]
  | cons c cs ih =>
      rw [List.cons_append, wholeValue, wholeValue, ih, List.length_append, pow_add]
      ring

/-- Behind the point the same digits count by units of the last place. -/
theorem wholeValue_eq_fractionValue (cs : List Char) :
    wholeValue cs = fractionValue cs * 10 ^ cs.length := by
  induction cs with
  | nil => simp [wholeValue, fractionValue]
  | cons c cs ih =>
      rw [wholeValue, fractionValue, ih, List.length_cons, pow_succ]
      ring

/-- Digits around a point, counted together in units of the last place, have the value of their places.
-/
theorem wholeValue_append_mul (cs ds : List Char) :
    wholeValue (cs ++ ds) * (10 : ℚ) ^ (-(ds.length : Int)) = wholeValue cs + fractionValue ds := by
  have hunit : (10 : ℚ) ^ ds.length * (10 : ℚ) ^ (-(ds.length : Int)) = 1 := by
    rw [← zpow_natCast, ← zpow_add₀ (by norm_num), add_neg_cancel, zpow_zero]
  rw [wholeValue_append, wholeValue_eq_fractionValue ds, ← add_mul, mul_assoc, hunit, mul_one]

/-! ## Numerals -/

/-- A minus sign, or nothing. -/
def signMark (negative : Bool) : List Char := if negative then ['-'] else []

/-- The parts of an ordinary decimal: there is a digit in front of the point or behind it. -/
structure Numeral where
  negative : Bool
  whole : List Char
  /-- The digits behind the point, if there is a point. -/
  fraction? : Option (List Char)
  isDigits_whole : IsDigits whole
  isDigits_fraction : IsDigits (fraction?.getD [])
  ne_nil : whole ++ fraction?.getD [] ≠ []

namespace Numeral

/-- The digits behind the point. -/
def fraction (n : Numeral) : List Char := n.fraction?.getD []

/-- How many digits stand behind the point. -/
def places (n : Numeral) : Nat := n.fraction.length

/-- The characters of a numeral. -/
def chars (n : Numeral) : List Char :=
  match n.fraction? with
  | none => signMark n.negative ++ n.whole
  | some ds => signMark n.negative ++ n.whole ++ '.' :: ds

/-- The number that a numeral denotes. -/
def value (n : Numeral) : ℚ :=
  let magnitude := wholeValue n.whole + fractionValue n.fraction
  if n.negative then -magnitude else magnitude

/-- The number of all the digits, with the sign. -/
def coefficient (n : Numeral) : Int :=
  Decimal.signed n.negative (Nat.ofDigitChars 10 (n.whole ++ n.fraction) 0)

theorem isDigits_of_fraction? {n : Numeral} {ds : List Char} (h : n.fraction? = some ds) :
    IsDigits ds := by
  have hfraction := n.isDigits_fraction
  rwa [h] at hfraction

theorem isDigits (n : Numeral) : IsDigits (n.whole ++ n.fraction) :=
  n.isDigits_whole.append n.isDigits_fraction

theorem cast_coefficient (n : Numeral) : (n.coefficient : ℚ) =
    if n.negative then -wholeValue (n.whole ++ n.fraction) else wholeValue (n.whole ++ n.fraction) := by
  rw [coefficient, Decimal.signed, ← cast_ofDigitChars]
  split
  · rw [Int.cast_neg, Int.cast_natCast]
  · rw [Int.cast_natCast]

/-- All the digits, counted in units of the last place. -/
theorem coefficient_mul (n : Numeral) : (n.coefficient : ℚ) * 10 ^ (-(n.places : Int)) = n.value := by
  have hdigits := wholeValue_append_mul n.whole n.fraction
  rw [cast_coefficient, places, value]
  split
  · rw [neg_mul, hdigits]
  · exact hdigits

end Numeral

/-! ## Reading a numeral -/

namespace Decimal

/-- A scale that fits is kept, and the coefficient with it. -/
theorem ofScale?_eq_some_iff {k s : Int} {d : Decimal} :
    ofScale? k s = some d ↔ d.coefficient = k ∧ d.scale = s := by
  unfold ofScale?
  split
  · rw [Option.some.injEq]
    constructor
    · rintro rfl
      exact ⟨rfl, rfl⟩
    · rintro ⟨rfl, rfl⟩
      rfl
  · next h =>
      constructor
      · intro hnone
        cases hnone
      · rintro ⟨-, rfl⟩
        exact absurd ⟨d.le_scale, d.scale_lt⟩ h

theorem exists_ofScale? (k : Int) {s : Int} (h : -9223372036854775808 ≤ s ∧ s < 9223372036854775808) :
    ∃ d, ofScale? k s = some d := by
  rw [ofScale?, dif_pos h]
  exact ⟨_, rfl⟩

theorem magnitude?_of_isDigits {ds : List Char} (h : IsDigits ds) (hne : ds ≠ []) :
    magnitude? ds = some (Nat.ofDigitChars 10 ds 0) := by
  obtain ⟨d, rest, rfl⟩ := List.exists_cons_of_ne_nil hne
  have hhead : (d :: rest).head?.any Char.isDigit = true := h d List.mem_cons_self
  have hall : (d :: rest).all (fun c => c.isDigit || c == '_') = true :=
    List.all_eq_true.mpr fun c hc => by rw [h c hc, Bool.true_or]
  have hfilter : (d :: rest).filter Char.isDigit = d :: rest := List.filter_eq_self.mpr h
  rw [magnitude?, hhead, hall, hfilter]
  rfl

/-- Digits are read as an integer, with a minus sign in front or without. -/
theorem integer?_of_isDigits {ds : List Char} (h : IsDigits ds) (hne : ds ≠ []) (negative : Bool) :
    integer? (signMark negative ++ ds) = some (signed negative (Nat.ofDigitChars 10 ds 0)) := by
  have hsign : splitSign (signMark negative ++ ds) = (negative, ds) := by
    cases negative with
    | true => rfl
    | false =>
        obtain ⟨d, rest, rfl⟩ := List.exists_cons_of_ne_nil hne
        exact splitSign_of_isDigit (h d List.mem_cons_self) rest
  rw [integer?, hsign]
  dsimp only
  rw [magnitude?_of_isDigits h hne, Option.map_some]

/-- The point is taken out, and what stands behind it is counted. -/
theorem splitPoint_append {cs : List Char} (hcs : '.' ∉ cs) (ds : List Char) :
    splitPoint (cs ++ '.' :: ds) = (cs ++ ds, ds.countP (· != '_')) := by
  have hne : ∀ c ∈ cs, (c != '.') = true := fun c hc => by
    simpa using fun heq : c = '.' => hcs (heq ▸ hc)
  rw [splitPoint, List.dropWhile_append_of_pos hne, List.takeWhile_append_of_pos hne]
  simp

theorem countP_of_isDigits {ds : List Char} (h : IsDigits ds) :
    ds.countP (· != '_') = ds.length := by
  refine List.countP_eq_length.mpr fun c hc => ?_
  rw [bne_iff_ne]
  rintro rfl
  exact absurd (h '_' hc) (by decide)

end Decimal

namespace Numeral

theorem point_notMem (n : Numeral) : '.' ∉ signMark n.negative ++ n.whole := by
  intro h
  rcases List.mem_append.mp h with h | h
  · unfold signMark at h
    split at h
    · exact absurd h (by decide)
    · cases h
  · exact absurd (n.isDigits_whole '.' h) (by decide)

/-- Of a numeral that leaves its digits with the sign in front, and counts its places. -/
theorem splitPoint_chars (n : Numeral) :
    Decimal.splitPoint n.chars = (signMark n.negative ++ (n.whole ++ n.fraction), n.places) := by
  unfold chars places fraction
  split
  · next h =>
      rw [Decimal.splitPoint_of_notMem n.point_notMem, h]
      simp
  · next ds h =>
      rw [Decimal.splitPoint_append n.point_notMem, Decimal.countP_of_isDigits (isDigits_of_fraction? h),
        h]
      simp

/-- **A numeral is read as its digits, counted in units of the last place**, with a power of ten behind
it or without one. -/
theorem ofChars?_of_splitExponent? (n : Numeral) {cs : List Char} {power : Int}
    (h : Decimal.splitExponent? cs = some (n.chars, power)) :
    Decimal.ofChars? cs = Decimal.ofScale? n.coefficient (n.places - power) := by
  have hinteger : Decimal.integer? (signMark n.negative ++ (n.whole ++ n.fraction)) = some n.coefficient :=
    Decimal.integer?_of_isDigits n.isDigits n.ne_nil n.negative
  simp only [Decimal.ofChars?, h, n.splitPoint_chars, hinteger, bind, Option.bind]

end Numeral

/-! ## The characters of numerals -/

/-- A minus sign, a point or a digit. -/
def IsNumeralChar (c : Char) : Prop := c = '-' ∨ c = '.' ∨ c.isDigit = true

/-- What holds of all these characters holds of each. -/
theorem IsNumeralChar.of_all {p : Char → Bool} (hall : ('.' :: integerAlphabet).all p = true)
    {c : Char} (h : IsNumeralChar c) : p c = true := by
  refine List.all_eq_true.mp hall c ?_
  rcases h with rfl | rfl | hdigit
  · decide
  · decide
  · exact List.mem_cons_of_mem _ (mem_integerAlphabet (by rw [isIntegerChar, hdigit, Bool.or_true]))

theorem Operand.isNumeric_iff {cs : List Char} :
    isNumeric cs = true ↔ cs ≠ [] ∧ ∀ c ∈ cs, IsNumeralChar c := by
  simp [isNumeric, IsNumeralChar, or_assoc]

theorem IsNumeralChar.isExponentMark_eq_false {c : Char} (h : IsNumeralChar c) :
    Decimal.isExponentMark c = false := by
  have hall : ('.' :: integerAlphabet).all (fun c => !Decimal.isExponentMark c) = true := by decide
  simpa using h.of_all hall

theorem Decimal.splitExponent?_of_isNumeralChar {cs : List Char} (h : ∀ c ∈ cs, IsNumeralChar c) :
    splitExponent? cs = some (cs, 0) :=
  splitExponent?_of_notMem fun c hc => (h c hc).isExponentMark_eq_false

namespace Numeral

theorem isNumeralChar_of_mem {n : Numeral} : ∀ c ∈ n.chars, IsNumeralChar c := by
  have hsign : ∀ c ∈ signMark n.negative, IsNumeralChar c := by
    unfold signMark
    split
    · exact fun c hc => .inl (List.mem_singleton.mp hc)
    · exact nofun
  have hwhole : ∀ c ∈ signMark n.negative ++ n.whole, IsNumeralChar c := fun c hc =>
    (List.mem_append.mp hc).elim (hsign c) fun h => .inr (.inr (n.isDigits_whole c h))
  intro c hc
  unfold chars at hc
  split at hc
  · exact hwhole c hc
  · next ds h =>
      rcases List.mem_append.mp hc with hc | hc
      · exact hwhole c hc
      · rcases List.mem_cons.mp hc with hc | hc
        · exact .inr (.inl hc)
        · exact .inr (.inr (isDigits_of_fraction? h c hc))

theorem chars_ne_nil (n : Numeral) : n.chars ≠ [] := by
  unfold chars
  split
  · next h =>
      have hne := n.ne_nil
      rw [h] at hne
      exact List.append_ne_nil_of_right_ne_nil _ (by simpa using hne)
  · simp

theorem isNumeric_chars (n : Numeral) : Operand.isNumeric n.chars = true :=
  Operand.isNumeric_iff.mpr ⟨n.chars_ne_nil, n.isNumeralChar_of_mem⟩

/-- **A numeral by itself is read as the number that it denotes.** -/
theorem ofChars?_chars (n : Numeral) :
    Decimal.ofChars? n.chars = Decimal.ofScale? n.coefficient n.places := by
  have hexponent := Decimal.splitExponent?_of_isNumeralChar n.isNumeralChar_of_mem
  rw [n.ofChars?_of_splitExponent? hexponent, sub_zero]

theorem ofChars?_eq {n : Numeral} {cs : List Char} {k s : Int} (hchars : n.chars = cs)
    (hcoefficient : n.coefficient = k) (hplaces : (n.places : Int) = s) :
    Decimal.ofChars? cs = Decimal.ofScale? k s := by
  rw [← hchars, ofChars?_chars, hcoefficient, hplaces]

/-- The decimal that a numeral is read as denotes the same number. -/
theorem value_of_ofChars? {n : Numeral} {d : Decimal} (h : Decimal.ofChars? n.chars = some d) :
    d.value = n.value := by
  rw [ofChars?_chars] at h
  obtain ⟨hcoefficient, hscale⟩ := Decimal.ofScale?_eq_some_iff.mp h
  rw [Decimal.value, hcoefficient, hscale, coefficient_mul]

end Numeral

/-! ## What else is read -/

namespace Decimal

theorem splitSign_eq {cs : List Char} (h : ∀ c ∈ cs, IsNumeralChar c) :
    signMark (splitSign cs).1 ++ (splitSign cs).2 = cs := by
  unfold splitSign
  split
  · rfl
  · next ds =>
      -- a plus sign is none of these characters
      have hplus := (h '+' List.mem_cons_self).of_all (p := (· != '+')) (by decide)
      cases hplus
  · rfl

theorem isDigits_of_magnitude? {ds : List Char} {m : Nat} (hds : ∀ c ∈ ds, IsNumeralChar c)
    (h : magnitude? ds = some m) : IsDigits ds ∧ ds ≠ [] := by
  unfold magnitude? at h
  split at h
  · next hcond =>
      obtain ⟨hhead, hall⟩ := Bool.and_eq_true_iff.mp hcond
      refine ⟨fun c hc => ?_, fun hnil => ?_⟩
      · -- an underscore would be passed over, but is none of these characters
        have hmark := (hds c hc).of_all (p := (· != '_')) (by decide)
        have hdigit := List.all_eq_true.mp hall c hc
        rw [bne_iff_ne] at hmark
        simpa [hmark] using hdigit
      · rw [hnil] at hhead
        cases hhead
  · cases h

/-- Among texts of minus signs, points and digits, an integer is digits, maybe with one minus sign in
front. -/
theorem exists_digits_of_integer? {cs : List Char} {k : Int} (hcs : ∀ c ∈ cs, IsNumeralChar c)
    (h : integer? cs = some k) :
    ∃ negative ds, IsDigits ds ∧ ds ≠ [] ∧ cs = signMark negative ++ ds := by
  obtain ⟨m, hm, -⟩ := Option.map_eq_some_iff.mp h
  have hsplit := splitSign_eq hcs
  have hds : ∀ c ∈ (splitSign cs).2, IsNumeralChar c := fun c hc =>
    hcs c (hsplit ▸ List.mem_append_right _ hc)
  obtain ⟨hdigits, hne⟩ := isDigits_of_magnitude? hds hm
  exact ⟨_, _, hdigits, hne, hsplit.symm⟩

theorem exists_integer?_of_ofChars? {cs : List Char} {d : Decimal} (hcs : ∀ c ∈ cs, IsNumeralChar c)
    (h : ofChars? cs = some d) : ∃ k, integer? (splitPoint cs).1 = some k := by
  rw [ofChars?, splitExponent?_of_isNumeralChar hcs] at h
  cases hk : integer? (splitPoint cs).1 with
  | none => simp [hk] at h
  | some k => exact ⟨k, rfl⟩

/-- **Only numerals and signed fractions are read**, of the texts of minus signs, points and digits. -/
theorem exists_numeral_of_ofChars? {cs : List Char} {d : Decimal} (hcs : ∀ c ∈ cs, IsNumeralChar c)
    (h : ofChars? cs = some d) :
    (∃ n : Numeral, n.chars = cs) ∨ ∃ ds, IsDigits ds ∧ ds ≠ [] ∧ cs = '.' :: '-' :: ds := by
  obtain ⟨k, hk⟩ := exists_integer?_of_ofChars? hcs h
  by_cases hpoint : '.' ∈ cs
  · obtain ⟨ws, fs, rfl, hws⟩ := List.eq_append_cons_of_mem hpoint
    rw [splitPoint_append hws] at hk
    have hjoined : ∀ c ∈ ws ++ fs, IsNumeralChar c := fun c hc => by
      refine hcs c (List.mem_append.mpr ((List.mem_append.mp hc).imp_right ?_))
      exact List.mem_cons_of_mem _
    obtain ⟨negative, ds, hds, hne, heq⟩ := exists_digits_of_integer? hjoined hk
    -- the sign that was found stood in front of the point or behind it
    cases negative with
    | false =>
        obtain rfl : ws ++ fs = ds := heq
        exact .inl ⟨⟨false, ws, some fs, fun c hc => hds c (List.mem_append_left _ hc),
          fun c hc => hds c (List.mem_append_right _ hc), hne⟩, rfl⟩
    | true =>
        rcases List.append_eq_cons_iff.mp heq with ⟨rfl, rfl⟩ | ⟨ws', rfl, rfl⟩
        · -- nothing stood in front of the point, and the sign directly behind it
          exact .inr ⟨ds, hds, hne, rfl⟩
        · exact .inl ⟨⟨true, ws', some fs, fun c hc => hds c (List.mem_append_left _ hc),
            fun c hc => hds c (List.mem_append_right _ hc), hne⟩, rfl⟩
  · -- without a point all of it is an integer
    rw [splitPoint_of_notMem hpoint] at hk
    obtain ⟨negative, ds, hds, hne, rfl⟩ := exists_digits_of_integer? hcs hk
    exact .inl ⟨⟨negative, ds, none, hds, nofun, by simpa using hne⟩, rfl⟩

/-- A minus sign behind the point comes to stand in front, and counts as a decimal. -/
theorem ofChars?_signedFraction {ds : List Char} (h : IsDigits ds) (hne : ds ≠ []) :
    ofChars? ('.' :: '-' :: ds) =
      ofScale? (-(Nat.ofDigitChars 10 ds 0 : Int)) (ds.length + 1 : Nat) := by
  have hchars : ∀ c ∈ '.' :: '-' :: ds, IsNumeralChar c := by
    intro c hc
    rcases List.mem_cons.mp hc with rfl | hc
    · exact .inr (.inl rfl)
    · exact (List.mem_cons.mp hc).imp_right fun hmem => .inr (h c hmem)
  have hpoint : splitPoint ('.' :: '-' :: ds) = ('-' :: ds, ds.length + 1) := by
    have hsplit := splitPoint_append (show '.' ∉ ([] : List Char) from nofun) ('-' :: ds)
    rw [List.countP_cons, countP_of_isDigits h] at hsplit
    exact hsplit
  have hinteger : integer? ('-' :: ds) = some (-(Nat.ofDigitChars 10 ds 0 : Int)) :=
    integer?_of_isDigits h hne true
  rw [ofChars?, splitExponent?_of_isNumeralChar hchars]
  simp only [hpoint, hinteger, bind, Option.bind, sub_zero]

/-- The minus sign counts as a zero directly behind the point. -/
theorem value_of_signedFraction {ds : List Char} {d : Decimal} (h : IsDigits ds) (hne : ds ≠ [])
    (hd : ofChars? ('.' :: '-' :: ds) = some d) : d.value = -fractionValue ('0' :: ds) := by
  rw [ofChars?_signedFraction h hne] at hd
  obtain ⟨hcoefficient, hscale⟩ := ofScale?_eq_some_iff.mp hd
  have hplaces := wholeValue_append_mul [] ('0' :: ds)
  have hzero : wholeValue ([] ++ '0' :: ds) = wholeValue ds := by simp [wholeValue, digitValue]
  rw [hzero, ← cast_ofDigitChars, List.length_cons, wholeValue, zero_add] at hplaces
  rw [value, hcoefficient, hscale, Int.cast_neg, Int.cast_natCast, neg_mul, hplaces]

end Decimal

/-- No numeral has a minus sign behind its point. -/
theorem Numeral.chars_ne (n : Numeral) (ds : List Char) : n.chars ≠ '.' :: '-' :: ds := by
  intro heq
  have hpoint := n.point_notMem
  unfold chars at heq
  split at heq
  · exact hpoint (heq ▸ List.mem_cons_self)
  · next fs hfs =>
      rcases List.append_eq_cons_iff.mp heq with ⟨-, hfraction⟩ | ⟨rest, hfront, -⟩
      · -- the point stands in front, and a digit behind it
        have hminus := isDigits_of_fraction? hfs '-' (by
          rw [(List.cons.inj hfraction).2]
          exact List.mem_cons_self)
        exact absurd hminus (by decide)
      · exact hpoint (hfront ▸ List.mem_cons_self)

end Criterion
