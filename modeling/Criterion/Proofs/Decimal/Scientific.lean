import Criterion.Proofs.Decimal.Written

/-!
# Numerals with an exponent

A number in a text is a numeral, maybe with a power of ten behind it: `0.5`, `-12`, `1e+16`, `1.5e-7`. It
denotes the number of the numeral times that power. It is read as that number if it is read as a decimal
at all, and it is read as one if its exponent fits 128 bits and its scale 64.
-/

namespace Criterion

/-- A numeral, and what the power of ten behind it is, if there is one: whether its exponent is negative,
and the exponent's magnitude. -/
structure Scientific where
  numeral : Numeral
  exponent? : Option (Bool × Nat)

namespace Scientific

/-- The characters of a number. The sign of an exponent is always written. -/
def chars (s : Scientific) : List Char :=
  match s.exponent? with
  | none => s.numeral.chars
  | some (negative, k) =>
    s.numeral.chars ++ 'e' :: (if negative then '-' else '+') :: Nat.toDigits 10 k

/-- The exponent; zero if there is none. -/
def power (s : Scientific) : Int :=
  match s.exponent? with
  | none => 0
  | some (negative, k) => Decimal.signed negative k

/-- The number that is denoted. -/
def value (s : Scientific) : ℚ := s.numeral.value * 10 ^ s.power

/-- The exponent, and the scale that it leads to, fit the words that they are kept in. -/
structure Fits (s : Scientific) : Prop where
  power_mem : -Decimal.signedBound128 ≤ s.power ∧ s.power < Decimal.signedBound128
  scale_mem : -9223372036854775808 ≤ s.numeral.places - s.power ∧
    s.numeral.places - s.power < 9223372036854775808

/-! ## Reading -/

/-- What stands in front of the exponent is the numeral. -/
theorem splitExponent?_chars (s : Scientific) : Decimal.splitExponent? s.chars =
    if -Decimal.signedBound128 ≤ s.power ∧ s.power < Decimal.signedBound128
      then some (s.numeral.chars, s.power) else none := by
  have hnumeral : ∀ c ∈ s.numeral.chars, Decimal.isExponentMark c = false := fun c hc =>
    (s.numeral.isNumeralChar_of_mem c hc).isExponentMark_eq_false
  unfold chars power
  split
  · rw [Decimal.splitExponent?_of_notMem hnumeral, if_pos (by decide)]
  · next negative k _ =>
      -- the numeral holds no mark of an exponent, so that the first one is the one behind it
      rw [Decimal.splitExponent?_append hnumeral rfl, Decimal.exponent?_eq]
      split <;> rfl

theorem ofChars?_chars (s : Scientific) : Decimal.ofChars? s.chars =
    if -Decimal.signedBound128 ≤ s.power ∧ s.power < Decimal.signedBound128
      then Decimal.ofScale? s.numeral.coefficient (s.numeral.places - s.power) else none := by
  have hsplit := s.splitExponent?_chars
  split
  · next hfits =>
      rw [if_pos hfits] at hsplit
      exact s.numeral.ofChars?_of_splitExponent? hsplit
  · next hfits =>
      rw [if_neg hfits] at hsplit
      rw [Decimal.ofChars?, hsplit]
      rfl

/-- **A number that is read is read as what it denotes.** -/
theorem value_of_ofChars? {s : Scientific} {d : Decimal} (h : Decimal.ofChars? s.chars = some d) :
    d.value = s.value := by
  rw [ofChars?_chars] at h
  split at h
  · -- a scale that is less by the exponent counts ten to that power more
    obtain ⟨hcoefficient, hscale⟩ := Decimal.ofScale?_eq_some_iff.mp h
    have hexponent : -(s.numeral.places - s.power) = -(s.numeral.places : Int) + s.power := by ring
    rw [Decimal.value, hcoefficient, hscale, hexponent, zpow_add₀ (by norm_num), ← mul_assoc,
      s.numeral.coefficient_mul, value]
  · cases h

theorem Fits.exists_ofChars? {s : Scientific} (h : s.Fits) :
    ∃ d, Decimal.ofChars? s.chars = some d := by
  rw [ofChars?_chars, if_pos h.power_mem]
  exact Decimal.exists_ofScale? _ h.scale_mem

end Scientific

/-- The text is a number, and this one, however it is taken apart. -/
structure DenotesNumber (text : String) (v : ℚ) : Prop where
  exists_scientific : ∃ s : Scientific, s.chars = text.toList
  value_eq : ∀ s : Scientific, s.chars = text.toList → s.value = v

/-- **A number that fits is read as the number that its text denotes.** -/
theorem Scientific.Fits.exists_ofText? {s : Scientific} (h : s.Fits) {text : String}
    (htext : s.chars = text.toList) :
    ∃ d, Decimal.ofText? text = some d ∧ DenotesNumber text d.value := by
  obtain ⟨d, hd⟩ := h.exists_ofChars?
  rw [htext] at hd
  refine ⟨d, hd, ⟨s, htext⟩, fun s' hs' => ?_⟩
  rw [← hs'] at hd
  exact (value_of_ofChars? hd).symm

end Criterion
