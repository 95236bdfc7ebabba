import Criterion.Proofs.Decimal.Numeral

/-!
# Written decimals are read back

Whatever the layout, a written decimal is a numeral, or a numeral and a power of ten. Read back, it
denotes the number that it was written from. It keeps its digits and its scale as well, unless it was
filled up with zeros in place of a negative scale, or was zero, which is written without any scale.
-/

namespace Criterion.Decimal

/-! ## Powers of ten behind a numeral -/

/-- An exponent is read as the number that it is, if it fits. -/
theorem exponent?_eq (negative : Bool) (k : Nat) :
    exponent? ((if negative then '-' else '+') :: Nat.toDigits 10 k) =
      if -signedBound128 ≤ signed negative k ∧ signed negative k < signedBound128
        then some (signed negative k) else none := by
  have hsign : splitSign ((if negative then '-' else '+') :: Nat.toDigits 10 k) =
      (negative, Nat.toDigits 10 k) := by
    cases negative <;> rfl
  have hdigits : (Nat.toDigits 10 k).all Char.isDigit = true :=
    List.all_eq_true.mpr isDigit_of_mem_toDigits
  rw [exponent?, hsign]
  dsimp only
  rw [hdigits, Nat.ofDigitChars_ten_toDigits, if_pos (by simp [Nat.toDigits_ne_nil])]

theorem exponent?_toDigits (negative : Bool) {k : Nat} (h : (k : Int) < signedBound128) :
    exponent? ((if negative then '-' else '+') :: Nat.toDigits 10 k) = some (signed negative k) := by
  have hbound : -signedBound128 ≤ signed negative k ∧ signed negative k < signedBound128 := by
    unfold signed
    split <;> omega
  rw [exponent?_eq, if_pos hbound]

theorem splitExponent?_append {cs power : List Char} {mark : Char}
    (hcs : ∀ c ∈ cs, isExponentMark c = false) (hmark : isExponentMark mark = true) :
    splitExponent? (cs ++ mark :: power) = (exponent? power).map (cs, ·) := by
  have hpass : ∀ c ∈ cs, (!isExponentMark c) = true := fun c hc => by rw [hcs c hc]; rfl
  have hdrop : (cs ++ mark :: power).dropWhile (fun c => !isExponentMark c) = mark :: power := by
    rw [List.dropWhile_append_of_pos hpass, List.dropWhile_cons_of_neg (by simp [hmark])]
  have htake : (cs ++ mark :: power).takeWhile (fun c => !isExponentMark c) = cs := by
    rw [List.takeWhile_append_of_pos hpass, List.takeWhile_cons_of_neg (by simp [hmark]),
      List.append_nil]
  rw [splitExponent?, hdrop, htake]

/-- A numeral with a power of ten behind it. -/
theorem ofChars?_power (n : Numeral) {mark : Char} (hmark : isExponentMark mark = true)
    (negative : Bool) {k : Nat} (hk : (k : Int) < signedBound128) :
    ofChars? (n.chars ++ mark :: (if negative then '-' else '+') :: Nat.toDigits 10 k) =
      ofScale? n.coefficient (n.places - signed negative k) := by
  have hchars : ∀ c ∈ n.chars, isExponentMark c = false := fun c hc =>
    (n.isNumeralChar_of_mem c hc).isExponentMark_eq_false
  refine n.ofChars?_of_splitExponent? ?_
  rw [splitExponent?_append hchars hmark, exponent?_toDigits negative hk]
  rfl

/-! ## The layouts -/

/-- A coefficient and a scale that fits are read as their number. -/
theorem exists_of_ofScale? {cs : List Char} {k s : Int} (h : ofChars? cs = ofScale? k s)
    (hs : -9223372036854775808 ≤ s ∧ s < 9223372036854775808) :
    ∃ e, ofChars? cs = some e ∧ e.value = k * (10 : ℚ) ^ (-s) := by
  obtain ⟨e, he⟩ := exists_ofScale? k hs
  obtain ⟨hcoefficient, hscale⟩ := ofScale?_eq_some_iff.mp he
  exact ⟨e, by rw [h, he], by rw [value, hcoefficient, hscale]⟩

theorem isDigits_zeros (k : Nat) : IsDigits (List.replicate k '0') := fun c hc => by
  rw [List.eq_of_mem_replicate hc]
  rfl

theorem signed_mul (negative : Bool) (m zeros : Nat) :
    (signed negative (m * 10 ^ zeros : Nat) : ℚ) = signed negative m * 10 ^ zeros := by
  unfold signed
  split <;> push_cast <;> ring

section Layouts

variable {ds : List Char} (negative : Bool) (hds : IsDigits ds) (hne : ds ≠ [])

include hds

/-- Digits behind a point, and zeros between the two. -/
theorem exists_numeral_fraction (zeros : Nat) :
    ∃ n : Numeral, n.chars = signMark negative ++ '0' :: '.' :: (List.replicate zeros '0' ++ ds) ∧
      n.coefficient = signed negative (Nat.ofDigitChars 10 ds 0) ∧ n.places = zeros + ds.length := by
  refine ⟨⟨negative, ['0'], some (List.replicate zeros '0' ++ ds), by decide,
    (isDigits_zeros zeros).append hds, by simp⟩, ?_, ?_, ?_⟩
  · simp [Numeral.chars]
  · show signed negative (Nat.ofDigitChars 10 ('0' :: (List.replicate zeros '0' ++ ds)) 0) = _
    rw [Nat.ofDigitChars_cons, Nat.ofDigitChars_append, Nat.ofDigitChars_replicate_zero]
    rfl
  · simp [Numeral.places, Numeral.fraction]

theorem ofChars?_fraction {scale : Int} (hcount : ds.length ≤ scale) :
    ofChars? (signMark negative ++
        '0' :: '.' :: (List.replicate (scale - ds.length).toNat '0' ++ ds)) =
      ofScale? (signed negative (Nat.ofDigitChars 10 ds 0)) scale := by
  obtain ⟨n, hchars, hcoefficient, hplaces⟩ :=
    exists_numeral_fraction negative hds (scale - ds.length).toNat
  exact Numeral.ofChars?_eq hchars hcoefficient (by omega)

include hne

/-- Digits with a point behind the first of them. -/
theorem exists_numeral_withLeadingPoint :
    ∃ n : Numeral, n.chars = signMark negative ++ withLeadingPoint ds ∧
      n.coefficient = signed negative (Nat.ofDigitChars 10 ds 0) ∧ n.places + 1 = ds.length := by
  match ds with
  | [] => exact absurd rfl hne
  | [d] => exact ⟨⟨negative, [d], none, hds, nofun, by simp⟩, rfl, rfl, rfl⟩
  | d :: e :: es =>
      have hwhole : IsDigits [d] := fun c hc =>
        hds c (List.mem_singleton.mp hc ▸ List.mem_cons_self)
      have hfraction : IsDigits (e :: es) := fun c hc => hds c (List.mem_cons_of_mem _ hc)
      refine ⟨⟨negative, [d], some (e :: es), hwhole, hfraction, by simp⟩, ?_, rfl, rfl⟩
      simp [Numeral.chars, withLeadingPoint]

/-- The layout with a point behind the first digit and a negative power of ten. -/
theorem ofChars?_scientific {scale : Int} (hzeros : ds.length < scale)
    (hscale : scale < 9223372036854775808) :
    ofChars? (signMark negative ++ (withLeadingPoint ds ++
        'E' :: '-' :: Nat.toDigits 10 (scale - ds.length + 1).toNat)) =
      ofScale? (signed negative (Nat.ofDigitChars 10 ds 0)) scale := by
  obtain ⟨n, hchars, hcoefficient, hplaces⟩ := exists_numeral_withLeadingPoint negative hds hne
  have hpower := ofChars?_power n (show isExponentMark 'E' = true from rfl) true
    (k := (scale - ds.length + 1).toNat) (by unfold signedBound128; omega)
  have hshift : (n.places : Int) - signed true (scale - ds.length + 1).toNat = scale := by
    rw [signed, if_pos rfl]
    omega
  rw [hshift, hchars, hcoefficient, List.append_assoc] at hpower
  exact hpower

/-- The layout of bare digits and a positive power of ten. -/
theorem ofChars?_scaled {scale : Int} (hzeros : scale ≤ 0)
    (hscale : -9223372036854775808 ≤ scale) :
    ofChars? (signMark negative ++ (ds ++ 'e' :: '+' :: Nat.toDigits 10 (-scale).toNat)) =
      ofScale? (signed negative (Nat.ofDigitChars 10 ds 0)) scale := by
  let n : Numeral := ⟨negative, ds, none, hds, nofun, by simpa using hne⟩
  have hpower := ofChars?_power n (show isExponentMark 'e' = true from rfl) false
    (k := (-scale).toNat) (by unfold signedBound128; omega)
  have hshift : (n.places : Int) - signed false (-scale).toNat = scale := by
    have hplaces : n.places = 0 := rfl
    rw [signed, if_neg (by decide), hplaces]
    omega
  have hcoefficient : n.coefficient = signed negative (Nat.ofDigitChars 10 ds 0) := by
    rw [Numeral.coefficient]
    exact congrArg (fun cs => signed negative (Nat.ofDigitChars 10 cs 0)) (List.append_nil ds)
  rw [hshift, hcoefficient, show n.chars = signMark negative ++ ds from rfl, List.append_assoc]
    at hpower
  exact hpower

/-- The layout that fills in zeros, which are digits as any others when they are read. -/
theorem ofChars?_filled (zeros : Nat) :
    ofChars? (signMark negative ++ (ds ++ List.replicate zeros '0')) =
      ofScale? (signed negative (Nat.ofDigitChars 10 ds 0 * 10 ^ zeros : Nat)) 0 := by
  have hzeros : IsDigits (ds ++ List.replicate zeros '0') := hds.append (isDigits_zeros zeros)
  let n : Numeral := ⟨negative, ds ++ List.replicate zeros '0', none, hzeros, nofun, by simp [hne]⟩
  have hcoefficient : n.coefficient = signed negative (Nat.ofDigitChars 10 ds 0 * 10 ^ zeros : Nat) := by
    show signed negative (Nat.ofDigitChars 10 ((ds ++ List.replicate zeros '0') ++ []) 0) = _
    rw [List.append_nil, Nat.ofDigitChars_append, Nat.ofDigitChars_replicate_zero, mul_comm]
  exact Numeral.ofChars?_eq rfl hcoefficient rfl

/-- Digits with a point behind so many of them. -/
theorem exists_numeral_pointed (count : Nat) :
    ∃ n : Numeral, n.chars = signMark negative ++ (ds.take count ++ '.' :: ds.drop count) ∧
      n.coefficient = signed negative (Nat.ofDigitChars 10 ds 0) ∧
      n.places = ds.length - count := by
  refine ⟨⟨negative, ds.take count, some (ds.drop count), fun c hc => hds c (List.mem_of_mem_take hc),
    fun c hc => hds c (List.mem_of_mem_drop hc), by simpa using hne⟩, ?_, ?_, ?_⟩
  · exact List.append_assoc _ _ _
  · show signed negative (Nat.ofDigitChars 10 (ds.take count ++ ds.drop count) 0) = _
    rw [List.take_append_drop]
  · exact List.length_drop

theorem ofChars?_pointed {scale : Int} (hpos : 0 < scale) (hcount : scale < ds.length) :
    ofChars? (signMark negative ++
        (ds.take (ds.length - scale).toNat ++ '.' :: ds.drop (ds.length - scale).toNat)) =
      ofScale? (signed negative (Nat.ofDigitChars 10 ds 0)) scale := by
  obtain ⟨n, hchars, hcoefficient, hplaces⟩ :=
    exists_numeral_pointed negative hds hne (ds.length - scale).toNat
  exact Numeral.ofChars?_eq hchars hcoefficient (by omega)

/-- **Every layout is read back as the number that was laid out.** -/
theorem exists_ofChars?_layout {scale : Int}
    (hscale : -9223372036854775808 ≤ scale ∧ scale < 9223372036854775808) :
    ∃ e, ofChars? (signMark negative ++ layout ds scale) = some e ∧
      e.value = signed negative (Nat.ofDigitChars 10 ds 0) * (10 : ℚ) ^ (-scale) := by
  unfold layout leadingZeroLimit trailingZeroLimit
  dsimp only
  split
  · -- many zeros behind the point
    exact exists_of_ofScale? (ofChars?_scientific negative hds hne (by omega) hscale.2) hscale
  · split
    · -- many zeros behind the digits
      exact exists_of_ofScale? (ofChars?_scaled negative hds hne (by omega) hscale.1) hscale
    · split
      · -- the zeros that are filled in are the power of ten
        obtain ⟨e, he, hvalue⟩ := exists_of_ofScale?
          (ofChars?_filled negative hds hne (-scale).toNat) (by omega)
        refine ⟨e, he, ?_⟩
        rw [hvalue, neg_zero, zpow_zero, mul_one, signed_mul, ← zpow_natCast,
          Int.toNat_of_nonneg (by omega)]
      · split
        · -- no digit in front of the point but a zero
          exact exists_of_ofScale? (ofChars?_fraction negative hds (by omega)) hscale
        · -- the point among the digits
          exact exists_of_ofScale? (ofChars?_pointed negative hds hne (by omega) (by omega)) hscale

end Layouts

/-! ## The written decimal -/

/-- But for zero, a decimal is written as its sign and a layout of its digits. -/
theorem toChars_of_ne_zero {d : Decimal} (h : d.coefficient ≠ 0) :
    d.toChars = signMark (decide (d.coefficient < 0)) ++
      layout (Nat.toDigits 10 d.coefficient.natAbs) d.scale := by
  rw [toChars, if_neg h]
  dsimp only
  split
  · next hneg => rw [decide_eq_true hneg]; rfl
  · next hneg => rw [decide_eq_false hneg]; rfl

/-- **What is written is read back as the same number**, whatever the digits and the scale. -/
theorem exists_ofText?_toText (d : Decimal) :
    ∃ e, ofText? d.toText = some e ∧ e.value = d.value := by
  have hchars : d.toText.toList = d.toChars := String.toList_ofList
  rw [ofText?, hchars]
  by_cases hzero : d.coefficient = 0
  · -- zero is written without its scale
    refine ⟨ofInt 0, ?_, ?_⟩
    · rw [toChars, if_pos hzero]
      exact ofChars?_integerChars 0
    · rw [value_ofInt, value, hzero, Int.cast_zero, zero_mul]
  · obtain ⟨e, he, hvalue⟩ := exists_ofChars?_layout (decide (d.coefficient < 0))
      isDigit_of_mem_toDigits Nat.toDigits_ne_nil ⟨d.le_scale, d.scale_lt⟩
    rw [Nat.ofDigitChars_ten_toDigits, signed_natAbs] at hvalue
    exact ⟨e, by rw [toChars_of_ne_zero hzero, he], hvalue⟩

end Criterion.Decimal
