import Criterion.Proofs.Comparing
import Criterion.Proofs.Datum.Shortest
import Criterion.Proofs.Decimal.Scientific
import Criterion.Proofs.Substitution
import Mathlib.Data.List.DropRight

/-!
# Numbers as parameters

The text of an integer is a numeral. The text of a float is one as well, between `10^-5` and `10^16`, and
a numeral with an exponent outside. Neither the digits behind the point nor the exponent ever come near
what a decimal has room for, so that reading the text as a decimal does not fail: a number that is given
to a parameter is the decimal that its text denotes, and no text. In particular integers are compared as
integers, however long they are.
-/

namespace Criterion

/-! ## Digits -/

namespace Binary64

theorem significantDigits_prefix_toDigits (n : Nat) : significantDigits n <+: Nat.toDigits 10 n :=
  List.rdropWhile_prefix (· == '0') (Nat.toDigits 10 n)

theorem isDigits_significantDigits (n : Nat) : IsDigits (significantDigits n) := fun c hc =>
  isDigit_of_mem_toDigits c ((significantDigits_prefix_toDigits n).subset hc)

theorem length_significantDigits_le (n : Nat) :
    (significantDigits n).length ≤ Decimal.digitCount n :=
  (significantDigits_prefix_toDigits n).length_le

/-- The first digit is no zero, and stays. -/
theorem significantDigits_ne_nil {n : Nat} (h : 0 < n) : significantDigits n ≠ [] := by
  intro hnil
  obtain ⟨d, ds, hds⟩ := List.exists_cons_of_ne_nil (Nat.toDigits_ne_nil (n := n) (b := 10))
  have hzeros : ∀ c ∈ Nat.toDigits 10 n, (c == '0') = true := List.rdropWhile_eq_nil_iff.mp hnil
  have hzero : d = '0' := beq_iff_eq.mp (hzeros d (hds ▸ List.mem_cons_self))
  have hhead := head?_toDigits_ne_zero h
  rw [hds, hzero] at hhead
  exact hhead rfl

end Binary64

/-! ## Texts that are numbers -/

/-- The characters are those of a number, and its exponent and its places come to `k` at most. -/
def IsNumberWithin (k : Nat) (cs : List Char) : Prop :=
  ∃ s : Scientific, s.chars = cs ∧ s.power.natAbs + s.numeral.places ≤ k

theorem IsNumberWithin.mono {k l : Nat} {cs : List Char} (h : IsNumberWithin k cs) (hkl : k ≤ l) :
    IsNumberWithin l cs := by
  obtain ⟨s, hchars, hle⟩ := h
  exact ⟨s, hchars, hle.trans hkl⟩

/-- What is small is read as the number that it denotes. -/
theorem IsNumberWithin.exists_ofText? {k : Nat} {text : String}
    (h : IsNumberWithin k text.toList) (hk : k < 9223372036854775808) :
    ∃ d, Decimal.ofText? text = some d ∧ DenotesNumber text d.value := by
  obtain ⟨s, hchars, hle⟩ := h
  have hfits : s.Fits := by
    refine ⟨?_, by omega⟩
    unfold Decimal.signedBound128
    omega
  exact hfits.exists_ofText? hchars

theorem Numeral.isNumberWithin (n : Numeral) : IsNumberWithin n.places n.chars :=
  ⟨⟨n, none⟩, rfl, (Nat.zero_add n.places).le⟩

theorem Decimal.natAbs_signed (negative : Bool) (k : Nat) : (signed negative k).natAbs = k := by
  unfold signed
  split <;> omega

theorem isNumberWithin_integerChars (n : Int) : IsNumberWithin 0 (integerChars n) := by
  let numeral : Numeral := ⟨decide (n < 0), Nat.toDigits 10 n.natAbs, none, isDigit_of_mem_toDigits,
    nofun, by simp [Nat.toDigits_ne_nil]⟩
  have hchars : numeral.chars = integerChars n := by
    simp [numeral, Numeral.chars, signMark, integerChars, minusSign]
  exact hchars ▸ numeral.isNumberWithin

namespace Binary64

section Layout

variable {ds : List Char} (negative : Bool) (hds : IsDigits ds) (hne : ds ≠ [])

include hds

/-- A zero in front of the point, and zeros behind it in front of the digits. -/
theorem isNumberWithin_fraction (zeros : Nat) : IsNumberWithin (zeros + ds.length)
    (signMark negative ++ '0' :: '.' :: (List.replicate zeros '0' ++ ds)) := by
  obtain ⟨n, hchars, -, hplaces⟩ := Decimal.exists_numeral_fraction negative hds zeros
  exact hchars ▸ hplaces ▸ n.isNumberWithin

/-- Digits and zeros in front of the point, and a zero behind it. -/
theorem isNumberWithin_whole (zeros : Nat) : IsNumberWithin 1
    (signMark negative ++ (ds ++ List.replicate zeros '0' ++ ['.', '0'])) := by
  let n : Numeral := ⟨negative, ds ++ List.replicate zeros '0', some ['0'],
    hds.append (Decimal.isDigits_zeros zeros), by decide, by simp⟩
  have hchars : n.chars = signMark negative ++ (ds ++ List.replicate zeros '0' ++ ['.', '0']) := by
    simp [n, Numeral.chars]
  exact hchars ▸ n.isNumberWithin

include hne

/-- Digits with the point between them. -/
theorem isNumberWithin_pointed (count : Nat) : IsNumberWithin ds.length
    (signMark negative ++ (ds.take count ++ '.' :: ds.drop count)) := by
  obtain ⟨n, hchars, -, hplaces⟩ := Decimal.exists_numeral_pointed negative hds hne count
  exact hchars ▸ n.isNumberWithin.mono (by omega)

/-- Digits with the point behind the first of them, and with an exponent. -/
theorem isNumberWithin_power (below : Bool) (k : Nat) : IsNumberWithin (ds.length + k)
    (signMark negative ++ (Decimal.withLeadingPoint ds ++
      'e' :: (if below then '-' else '+') :: Nat.toDigits 10 k)) := by
  obtain ⟨n, hchars, -, hplaces⟩ := Decimal.exists_numeral_withLeadingPoint negative hds hne
  refine ⟨⟨n, some (below, k)⟩, ?_, ?_⟩
  · show n.chars ++ _ = _
    rw [hchars, List.append_assoc]
  · show (Decimal.signed below k).natAbs + n.places ≤ _
    rw [Decimal.natAbs_signed]
    omega

/-- **Every layout is a number**, with no more places, and no greater an exponent, than the digits and
the place of the first of them make. -/
theorem isNumberWithin_layout (place : Int) :
    IsNumberWithin (ds.length + place.natAbs) (signMark negative ++ layout ds place) := by
  have hlength : 0 < ds.length := List.length_pos_of_ne_nil hne
  unfold layout
  dsimp only
  -- an exponent on either side of the positional places, a point in front of the digits or behind
  split
  · exact isNumberWithin_power negative hds hne true place.natAbs
  · split
    · exact isNumberWithin_power negative hds hne false place.natAbs
    · split
      · exact (isNumberWithin_fraction negative hds (place.natAbs - 1)).mono (by omega)
      · split
        · exact (isNumberWithin_whole negative hds _).mono (by omega)
        · exact (isNumberWithin_pointed negative hds hne _).mono (by omega)

end Layout

theorem toChars_eq (x : Binary64) : x.toChars = signMark x.negative ++
    (if x.mantissa = 0 then ['0', '.', '0'] else layout (significantDigits x.shortest.digits)
      (x.shortest.power + Decimal.digitCount x.shortest.digits - 1)) := by
  rw [toChars, signMark]
  cases x.negative <;> rfl

/-- There are at most nineteen digits, and the first of them stands at a place below 418. -/
theorem isNumberWithin_toChars (x : Binary64) : IsNumberWithin 436 x.toChars := by
  rw [toChars_eq]
  split
  · -- zero is written `0.0`
    have hzero : IsDigits ['0'] := by decide
    exact (isNumberWithin_whole x.negative hzero 0).mono (by decide)
  · next hzero =>
      obtain ⟨hdigits, hcount, hlow, hhigh⟩ := shortest_spec hzero
      have hlength := length_significantDigits_le x.shortest.digits
      exact (isNumberWithin_layout x.negative (isDigits_significantDigits x.shortest.digits)
        (significantDigits_ne_nil hdigits) _).mono (by omega)

end Binary64

/-- **The text of a number is a number that every decimal has room for.** -/
theorem Number.isNumberWithin_toText (n : Number) : IsNumberWithin 436 n.toText.toList := by
  cases n with
  | integer n =>
      rw [toText, toList_toString]
      exact (isNumberWithin_integerChars n).mono (Nat.zero_le _)
  | float x =>
      rw [toText, Binary64.toText, String.toList_ofList]
      exact x.isNumberWithin_toChars

/-! ## The operands that numbers become -/

/-- A number becomes a decimal, and never a text. -/
theorem Operand.exists_ofDatum_number (n : Number) :
    ∃ d, ofDatum (.number n) = .decimal d ∧ DenotesNumber (Datum.number n).toJson d.value := by
  obtain ⟨d, hd, hdenotes⟩ := n.isNumberWithin_toText.exists_ofText? (by decide)
  refine ⟨d, ?_, ?_⟩
  · rw [ofDatum, hd]
  · rw [Datum.toJson]
    exact hdenotes

/-- References to two parameters that are decimals are compared as the numbers that these denote. -/
theorem Node.evaluate_decimal_parameters {op : Operator} (hop : op.isLogical = false)
    {context : Datum} {a b : String} {x y : Datum} {d e : Decimal}
    (ha : context.lookup a = some x) (hb : context.lookup b = some y)
    (hx : Operand.ofDatum x = .decimal d) (hy : Operand.ofDatum y = .decimal e) :
    (branch (some op) (some (leaf (.parameter a))) (some (leaf (.parameter b)))).evaluate
        (some context) = .bool (op.relates d.value e.value) := by
  rw [evaluate_eq_value, value, value, value, Operand.resolve_parameter_of_lookup ha,
    Operand.resolve_parameter_of_lookup hb, hx, hy, combine, Operator.apply_decimal hop]

/-- **A number that is given to a parameter is the decimal that its text denotes**, and never a text. So
integers that are given to two parameters are compared as integers, by each of the six comparisons. -/
theorem number_parameters_are_exact :
    (∀ n : Number, ∃ d, Operand.ofDatum (.number n) = .decimal d ∧
        DenotesNumber (Datum.number n).toJson d.value) ∧
      ∀ (op : Relation) (m n : Int) (a b : String) (context : Datum),
        context.lookup a = some (.number (.integer m)) →
        context.lookup b = some (.number (.integer n)) →
        (Node.branch (some op.val) (some (.leaf (.parameter a)))
          (some (.leaf (.parameter b)))).evaluate (some context) = .bool (op.val.relates m n) := by
  refine ⟨Operand.exists_ofDatum_number, fun op m n a b context ha hb => ?_⟩
  rw [Node.evaluate_decimal_parameters op.property ha hb (Operand.ofDatum_integer m)
    (Operand.ofDatum_integer n), Decimal.value_ofInt, Decimal.value_ofInt,
    Operator.relates_map Int.cast_strictMono]

/-- The greatest integer and the least one, whose texts are ordered the other way round, and the least
float above zero, which is written `5e-324`. -/
theorem number_parameters_are_exact_at_limits :
    let context := Datum.object [("a", .number (.integer 18446744073709551615)),
      ("b", .number (.integer (-9223372036854775808)))]
    let least : Binary64 := ⟨false, 1, -1074, by decide⟩
    context.lookup "a" = some (.number (.integer 18446744073709551615)) ∧
      context.lookup "b" = some (.number (.integer (-9223372036854775808))) ∧
      (Node.branch (some .gt) (some (.leaf (.parameter "a")))
        (some (.leaf (.parameter "b")))).evaluate (some context) = .bool true ∧
      ∃ d, Operand.ofDatum (.number (.float least)) = .decimal d ∧ d.value = 5 / 10 ^ 324 := by
  intro context least
  have ha : context.lookup "a" = some (.number (.integer 18446744073709551615)) := rfl
  have hb : context.lookup "b" = some (.number (.integer (-9223372036854775808))) := rfl
  obtain ⟨hexact, hcompare⟩ := number_parameters_are_exact
  refine ⟨ha, hb, hcompare ⟨.gt, rfl⟩ _ _ "a" "b" context ha hb, ?_⟩
  obtain ⟨d, hd, hdenotes⟩ := hexact (.float least)
  let five : Scientific := ⟨⟨false, ['5'], none, by decide, nofun, by decide⟩, some (true, 324)⟩
  have htext : five.chars = (Datum.number (.float least)).toJson.toList := by
    rw [Datum.toJson]
    decide +kernel
  have hvalue : five.value = 5 / 10 ^ 324 := by
    have hnumeral : five.numeral.value = 5 := by
      simp [five, Numeral.value, Numeral.fraction, wholeValue, fractionValue, digitValue]
    have hpower : five.power = -324 := rfl
    rw [Scientific.value, hnumeral, hpower, div_eq_mul_inv, zpow_neg]
    rfl
  exact ⟨d, hd, (hdenotes.value_eq five htext).symm.trans hvalue⟩

end Criterion
