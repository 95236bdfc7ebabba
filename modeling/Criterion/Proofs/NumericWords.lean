import Criterion.Proofs.Decimal.Numeral

/-!
# Words that are numbers

A word of minus signs, points and digits is a decimal if it is read as one, and otherwise a text as it
stands. It is read as one if it is a numeral, and then stands for the number that the numeral denotes.
The words with a minus sign directly behind a leading point are the only other ones.
-/

namespace Criterion

namespace Operand

theorem isNullWord_eq_false {cs : List Char} (h : ∀ c ∈ cs, IsNumeralChar c) :
    isNullWord cs = false := by
  have hletter : ∀ c ∈ cs, c.toLower ≠ 'n' := fun c hc =>
    bne_iff_ne.mp ((h c hc).of_all (p := fun c => c.toLower != 'n') (by decide))
  refine Bool.eq_false_iff.mpr fun hnull => ?_
  have heq : cs.map Char.toLower = ['n', 'u', 'l', 'l'] := beq_iff_eq.mp hnull
  obtain ⟨c, hc, hlower⟩ := List.mem_map.mp (heq ▸ List.mem_cons_self : 'n' ∈ cs.map Char.toLower)
  exact hletter c hc hlower

/-- **A word of minus signs, points and digits is the decimal that it is read as**, or a text as it
stands. -/
theorem ofWord_of_isNumeric {w : String} (h : isNumeric w.toList = true) :
    ofWord w = match Decimal.ofChars? w.toList with
      | some d => decimal d
      | none => text w := by
  obtain ⟨-, hchars⟩ := isNumeric_iff.mp h
  have hpercent : ∀ c ∈ w.toList, c ≠ '%' := fun c hc =>
    bne_iff_ne.mp ((hchars c hc).of_all (p := (· != '%')) (by decide))
  have hquote : ∀ c ∈ w.toList, c ≠ '\'' := fun c hc =>
    bne_iff_ne.mp ((hchars c hc).of_all (p := (· != '\'')) (by decide))
  have hblank : w ≠ blankSpelling := by
    rintro rfl
    exact hquote '\'' (by decide) rfl
  have hunquote : unquote? w.toList = none := by
    unfold unquote?
    split
    · next heq => exact absurd rfl (hquote '\'' (heq ▸ List.mem_cons_self))
    · rfl
  have hplain : ofPlainWord w = text w := by
    rw [ofPlainWord, isNullWord_eq_false hchars]
    rfl
  unfold ofWord
  split
  · next heq => exact absurd rfl (hpercent '%' (heq ▸ List.mem_cons_self))
  · rw [if_neg hblank, hunquote, ← hplain]
    exact congrArg (fun
      | some d => decimal d
      | none => ofPlainWord w) (if_pos h)

/-- A decimal is a word of minus signs, points and digits that is read as one. -/
theorem ofWord_eq_decimal_iff {w : String} {d : Decimal} : ofWord w = decimal d ↔
    isNumeric w.toList = true ∧ Decimal.ofChars? w.toList = some d := by
  constructor
  · intro h
    have hnumeric : isNumeric w.toList = true := by
      by_contra hnot
      -- what is left is a reference, the blank mark, a text between quotes and a plain word
      unfold ofWord at h
      split at h
      · cases h
      · rw [if_neg hnot] at h
        split at h
        · cases h
        · split at h
          · cases h
          · unfold ofPlainWord at h
            dsimp only at h
            split at h
            · cases h
            · cases h
    refine ⟨hnumeric, ?_⟩
    rw [ofWord_of_isNumeric hnumeric] at h
    split at h
    · next e he => rw [he, decimal.inj h]
    · cases h
  · rintro ⟨hnumeric, hread⟩
    rw [ofWord_of_isNumeric hnumeric, hread]

/-- A word is read as it is written. -/
structure ReadsAsWritten (w : String) : Prop where
  /-- It is a decimal just if it is a numeral, of no more places than a scale can count. -/
  isDecimal_iff : (∃ d, ofWord w = decimal d) ↔
    ∃ n : Numeral, n.chars = w.toList ∧ n.places < 9223372036854775808
  /-- Then it is the number that the numeral denotes. -/
  value_eq : ∀ d, ofWord w = decimal d → ∀ n : Numeral, n.chars = w.toList → d.value = n.value
  /-- Of minus signs, points and digits, but no decimal, it is a text as it stands. -/
  eq_text : isNumeric w.toList = true → (∀ d, ofWord w ≠ decimal d) → ofWord w = text w

/-- A word that is a point, a minus sign and digits, fewer of them than a scale can count. -/
structure IsSignedFraction (w : String) (ds : List Char) : Prop where
  isDigits : IsDigits ds
  ne_nil : ds ≠ []
  length_lt : ds.length + 1 < 9223372036854775808
  toList_eq : w.toList = '.' :: '-' :: ds

/-- The minus sign behind the point is read as a zero and as the sign of the number. -/
theorem IsSignedFraction.exists_decimal {w : String} {ds : List Char} (h : IsSignedFraction w ds) :
    ∃ d, ofWord w = decimal d ∧ d.value = -fractionValue ('0' :: ds) := by
  have hread := Decimal.ofChars?_signedFraction h.isDigits h.ne_nil
  have hlength := h.length_lt
  obtain ⟨d, hd⟩ := Decimal.exists_ofScale? (-(Nat.ofDigitChars 10 ds 0 : Int))
    (s := (ds.length + 1 : Nat)) (by omega)
  rw [hd] at hread
  have hnumeric : isNumeric w.toList = true := by
    rw [h.toList_eq, isNumeric_iff]
    refine ⟨by simp, fun c hc => ?_⟩
    rcases List.mem_cons.mp hc with rfl | hc
    · exact .inr (.inl rfl)
    · exact (List.mem_cons.mp hc).imp_right fun hmem => .inr (h.isDigits c hmem)
  refine ⟨d, ofWord_eq_decimal_iff.mpr ⟨hnumeric, by rw [h.toList_eq, hread]⟩, ?_⟩
  exact Decimal.value_of_signedFraction h.isDigits h.ne_nil hread

theorem IsSignedFraction.not_numeral {w : String} {ds : List Char} (h : IsSignedFraction w ds)
    (n : Numeral) : n.chars ≠ w.toList := by
  rw [h.toList_eq]
  exact n.chars_ne ds

/-- It is a decimal without being a numeral. -/
theorem IsSignedFraction.not_readsAsWritten {w : String} {ds : List Char}
    (h : IsSignedFraction w ds) : ¬ ReadsAsWritten w := by
  intro hreads
  obtain ⟨d, hd, -⟩ := h.exists_decimal
  obtain ⟨n, hn, -⟩ := hreads.isDecimal_iff.mp ⟨d, hd⟩
  exact h.not_numeral n hn

/-- A decimal is written as a numeral or a signed fraction, with places that a scale can count. -/
theorem exists_numeral_of_ofWord {w : String} {d : Decimal} (h : ofWord w = decimal d) :
    (∃ n : Numeral, n.chars = w.toList ∧ n.places < 9223372036854775808) ∨
      ∃ ds, IsSignedFraction w ds := by
  obtain ⟨hnumeric, hread⟩ := ofWord_eq_decimal_iff.mp h
  have hscale := d.scale_lt
  rcases Decimal.exists_numeral_of_ofChars? (isNumeric_iff.mp hnumeric).2 hread with
    ⟨n, hn⟩ | ⟨ds, hds, hne, hw⟩
  · -- the scale is the number of places
    rw [← hn, n.ofChars?_chars] at hread
    have hplaces := (Decimal.ofScale?_eq_some_iff.mp hread).2
    exact .inl ⟨n, hn, by omega⟩
  · -- it is one more than the number of digits
    rw [hw, Decimal.ofChars?_signedFraction hds hne] at hread
    have hplaces := (Decimal.ofScale?_eq_some_iff.mp hread).2
    exact .inr ⟨ds, hds, hne, by omega, hw⟩

theorem exists_decimal_of_numeral {w : String} {n : Numeral} (hn : n.chars = w.toList)
    (hplaces : n.places < 9223372036854775808) : ∃ d, ofWord w = decimal d := by
  obtain ⟨d, hd⟩ := Decimal.exists_ofScale? n.coefficient (s := n.places) (by omega)
  refine ⟨d, ofWord_eq_decimal_iff.mpr ⟨by rw [← hn]; exact n.isNumeric_chars, ?_⟩⟩
  rw [← hn, n.ofChars?_chars, hd]

/-- Every other word is read as it is written. -/
theorem readsAsWritten_of_not_signedFraction {w : String} (h : ∀ ds, ¬ IsSignedFraction w ds) :
    ReadsAsWritten w where
  isDecimal_iff := by
    constructor
    · rintro ⟨d, hd⟩
      rcases exists_numeral_of_ofWord hd with hn | ⟨ds, hds⟩
      · exact hn
      · exact absurd hds (h ds)
    · rintro ⟨n, hn, hplaces⟩
      exact exists_decimal_of_numeral hn hplaces
  value_eq := fun d hd n hn => by
    obtain ⟨-, hread⟩ := ofWord_eq_decimal_iff.mp hd
    rw [← hn] at hread
    exact Numeral.value_of_ofChars? hread
  eq_text := fun hnumeric hno => by
    rw [ofWord_of_isNumeric hnumeric] at hno ⊢
    split
    · next d hd => exact absurd (by rw [hd]) (hno d)
    · rfl

end Operand

/-- **Words are read as they are written: numerals as the numbers they denote, and other texts of minus
signs, points and digits as texts.** This holds of all words but those with a minus sign directly behind
a leading point, and of none of those. They are decimals too, as though the point stood behind a zero,
the minus sign were a zero, and the sign stood in front. -/
theorem readsAsWritten_iff (w : String) :
    (Operand.ReadsAsWritten w ↔ ∀ ds, ¬ Operand.IsSignedFraction w ds) ∧
      ∀ ds, Operand.IsSignedFraction w ds →
        ∃ d, Operand.ofWord w = .decimal d ∧ d.value = -fractionValue ('0' :: ds) :=
  ⟨⟨fun h _ hds => hds.not_readsAsWritten h, Operand.readsAsWritten_of_not_signedFraction⟩,
    fun _ hds => hds.exists_decimal⟩

/-- A numeral with a sign and no digit in front of its point, and the same characters in another order.
-/
theorem readsAsWritten_signs :
    (∀ ds, ¬ Operand.IsSignedFraction "-.05" ds) ∧ Operand.ReadsAsWritten "-.05" ∧
      Operand.IsSignedFraction ".-05" ['0', '5'] ∧
      ∃ d, Operand.ofWord ".-05" = .decimal d ∧ d.value = -1 / 200 := by
  have hnumeral : ∀ ds, ¬ Operand.IsSignedFraction "-.05" ds := fun ds h => by
    have hchars : ['-', '.', '0', '5'] = '.' :: '-' :: ds := h.toList_eq
    cases hchars
  have hsigned : Operand.IsSignedFraction ".-05" ['0', '5'] :=
    ⟨by decide, by decide, by decide, rfl⟩
  obtain ⟨d, hd, hvalue⟩ := (readsAsWritten_iff ".-05").2 _ hsigned
  refine ⟨hnumeral, (readsAsWritten_iff "-.05").1.mpr hnumeral, hsigned, d, hd, ?_⟩
  have hzero : digitValue '0' = 0 := rfl
  have hfive : digitValue '5' = 5 := rfl
  rw [hvalue, fractionValue, fractionValue, fractionValue, fractionValue, hzero, hfive]
  norm_num

/-- The word `.-5` is no numeral and yet a decimal, with two places. -/
theorem signed_fraction_is_decimal :
    Operand.isNumeric ".-5".toList = true ∧
      Operand.ofWord ".-5" = .decimal { coefficient := -5, scale := 2 } ∧
      (∀ n : Numeral, n.chars ≠ ".-5".toList) ∧ ¬ Operand.ReadsAsWritten ".-5" := by
  have hsigned : Operand.IsSignedFraction ".-5" ['5'] := ⟨by decide, by decide, by decide, rfl⟩
  exact ⟨by decide, by decide +kernel, hsigned.not_numeral, hsigned.not_readsAsWritten⟩

end Criterion
