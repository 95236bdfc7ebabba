import Criterion.Decimal.Basic
import Mathlib.Algebra.Order.Field.Power
import Mathlib.Data.Rat.Cast.Order
import Mathlib.Order.Compare
import Mathlib.Tactic.NormNum
import Mathlib.Tactic.Positivity

/-!
# Decimals are ordered as the numbers they denote

The order of two decimals looks at their digits and scales alone. It is the order of the rational
numbers `coefficient · 10^-scale`: a magnitude with `k` digits lies between `10^(k-1)` and `10^k`, so
that a leading digit further to the left decides; and where the leading digits stand at one place, both
magnitudes are counted in units of the finer of the two scales.
-/

namespace Criterion

theorem tenTo_eq_zpow {e : Int} (h : 0 ≤ e) : (tenTo e : ℚ) = (10 : ℚ) ^ e := by
  show ((10 ^ e.toNat : Nat) : ℚ) = _
  rw [Nat.cast_pow, Nat.cast_ofNat, ← zpow_natCast, Int.toNat_of_nonneg h]

namespace Decimal

/-- The number that a decimal denotes. -/
def value (d : Decimal) : ℚ := d.coefficient * (10 : ℚ) ^ (-d.scale)

@[simp] theorem value_ofInt (n : Int) : (ofInt n).value = n := by simp [value, ofInt]

/-! ## The leading digit -/

theorem digitCount_pos (n : Nat) : 0 < digitCount n := Nat.length_toDigits_pos

/-- A number of `k` digits lies below `10^k`. -/
theorem lt_pow_digitCount (n : Nat) : n < 10 ^ digitCount n :=
  (Nat.length_toDigits_le_iff (by decide) (digitCount_pos n)).mp (Nat.le_refl _)

/-- It does not lie below `10^(k-1)`, unless it is zero. -/
theorem pow_digitCount_le {n : Nat} (h : 0 < n) : 10 ^ (digitCount n - 1) ≤ n := by
  -- the bound on the length is one for a positive number of digits only
  rcases Nat.eq_zero_or_pos (digitCount n - 1) with hzero | hpos
  · rw [hzero]
    exact h
  · by_contra hlt
    have hle := (Nat.length_toDigits_le_iff (b := 10) (by decide) hpos).mpr (Nat.lt_of_not_le hlt)
    have hdigits := digitCount_pos n
    rw [digitCount] at hle hdigits hpos
    omega

/-- A magnitude lies below the place in front of its leading digit. -/
theorem magnitude_lt (m : Nat) (s : Int) : (m : ℚ) * 10 ^ (-s) < 10 ^ ((digitCount m : Int) - s) := by
  have hlt : (m : ℚ) < 10 ^ digitCount m := by exact_mod_cast lt_pow_digitCount m
  rw [sub_eq_add_neg, zpow_add₀ (by norm_num), zpow_natCast]
  exact mul_lt_mul_of_pos_right hlt (by positivity)

/-- A magnitude other than zero reaches the place of its leading digit. -/
theorem le_magnitude {m : Nat} (h : 0 < m) (s : Int) :
    (10 : ℚ) ^ ((digitCount m : Int) - s - 1) ≤ m * 10 ^ (-s) := by
  have hle : (10 : ℚ) ^ (digitCount m - 1) ≤ m := by exact_mod_cast pow_digitCount_le h
  have hcast : ((digitCount m : Int) - s - 1) = ((digitCount m - 1 : Nat) : Int) + -s := by
    have := digitCount_pos m
    omega
  rw [hcast, zpow_add₀ (by norm_num), zpow_natCast]
  exact mul_le_mul_of_nonneg_right hle (by positivity)

/-- A leading digit further to the left decides. -/
theorem magnitude_lt_magnitude {m n : Nat} {s t : Int} (hn : 0 < n)
    (h : (digitCount m : Int) - s < digitCount n - t) : (m : ℚ) * 10 ^ (-s) < n * 10 ^ (-t) :=
  calc (m : ℚ) * 10 ^ (-s) < 10 ^ ((digitCount m : Int) - s) := magnitude_lt m s
    _ ≤ 10 ^ ((digitCount n : Int) - t - 1) := zpow_le_zpow_right₀ (by norm_num) (by omega)
    _ ≤ n * 10 ^ (-t) := le_magnitude hn t

/-! ## The order -/

/-- A magnitude counted in units of a scale that is at least as fine. -/
theorem magnitude_eq_units (m : Nat) (s t : Int) :
    (m : ℚ) * 10 ^ (-s) = ((m * tenTo (t - s) : Nat) : ℚ) * 10 ^ (-max s t) := by
  rcases le_total s t with h | h
  · rw [max_eq_right h, Nat.cast_mul, tenTo_eq_zpow (by omega), mul_assoc, ← zpow_add₀ (by norm_num)]
    congr 2
    omega
  · have hone : tenTo (t - s) = 1 := by
      show 10 ^ (t - s).toNat = 1
      rw [Int.toNat_of_nonpos (by omega), pow_zero]
    rw [max_eq_left h, hone, mul_one]

/-- Counting in units keeps the order. -/
theorem compare_units (a b : Nat) (s : Int) :
    compare a b = compare ((a : ℚ) * 10 ^ (-s)) (b * 10 ^ (-s)) := by
  have hmono : StrictMono fun k : Nat => (k : ℚ) * 10 ^ (-s) := fun a b h =>
    mul_lt_mul_of_pos_right (by exact_mod_cast h) (by positivity)
  rw [← cmp_eq_compare, ← cmp_eq_compare]
  exact (hmono.cmp_map_eq a b).symm

/-- **Magnitudes are compared as the numbers that they stand for.** -/
theorem compareMagnitudes_eq (m : Nat) (s : Int) (n : Nat) (t : Int) :
    compareMagnitudes m s n t = compare ((m : ℚ) * 10 ^ (-s)) (n * 10 ^ (-t)) := by
  have hs : (0 : ℚ) < 10 ^ (-s) := by positivity
  have ht : (0 : ℚ) < 10 ^ (-t) := by positivity
  unfold compareMagnitudes
  split
  · next hzero =>
    -- zero lies below all others, whatever the scales are
    rcases hzero with rfl | rfl
    · rcases Nat.eq_zero_or_pos n with rfl | hn
      · simp
      · have hpos : (0 : ℚ) < n * 10 ^ (-t) := mul_pos (by exact_mod_cast hn) ht
        rw [Nat.cast_zero, zero_mul, compare_lt_iff_lt.mpr hpos, compare_lt_iff_lt.mpr hn]
    · rcases Nat.eq_zero_or_pos m with rfl | hm
      · simp
      · have hpos : (0 : ℚ) < m * 10 ^ (-s) := mul_pos (by exact_mod_cast hm) hs
        rw [Nat.cast_zero, zero_mul, compare_gt_iff_gt.mpr hpos, compare_gt_iff_gt.mpr hm]
  · next hne =>
    obtain ⟨hm, hn⟩ : 0 < m ∧ 0 < n := by omega
    dsimp only
    split
    · -- the leading digits stand at one place
      rw [magnitude_eq_units m s t, magnitude_eq_units n t s, max_comm t s]
      exact compare_units _ _ _
    · next hplace =>
      rcases lt_or_gt_of_ne hplace with hlt | hgt
      · rw [compare_lt_iff_lt.mpr hlt, compare_lt_iff_lt.mpr (magnitude_lt_magnitude hn hlt)]
      · rw [compare_gt_iff_gt.mpr hgt, compare_gt_iff_gt.mpr (magnitude_lt_magnitude hm hgt)]

theorem value_of_ofNat {d : Decimal} {m : Nat} (h : d.coefficient = .ofNat m) :
    d.value = m * 10 ^ (-d.scale) := by
  rw [value, h]
  simp

theorem value_of_negSucc {d : Decimal} {m : Nat} (h : d.coefficient = .negSucc m) :
    d.value = -(((m + 1 : Nat) : ℚ) * 10 ^ (-d.scale)) := by
  rw [value, h, Int.cast_negSucc, neg_mul]

theorem value_nonneg {d : Decimal} {m : Nat} (h : d.coefficient = .ofNat m) : 0 ≤ d.value := by
  rw [value_of_ofNat h]
  positivity

theorem value_neg {d : Decimal} {m : Nat} (h : d.coefficient = .negSucc m) : d.value < 0 := by
  rw [value_of_negSucc h]
  exact neg_neg_of_pos (by positivity)

/-- **The order of two decimals is that of the numbers they denote.** -/
theorem order_eq_compare (d e : Decimal) : d.order e = compare d.value e.value := by
  unfold order
  split
  · next m n hd he => rw [compareMagnitudes_eq, value_of_ofNat hd, value_of_ofNat he]
  · next hd he =>
    exact (compare_gt_iff_gt.mpr ((value_neg he).trans_le (value_nonneg hd))).symm
  · next hd he =>
    exact (compare_lt_iff_lt.mpr ((value_neg hd).trans_le (value_nonneg he))).symm
  · next m n hd he =>
    -- the magnitudes change sides, as the signs do
    rw [compareMagnitudes_eq, value_of_negSucc hd, value_of_negSucc he]
    rw [← cmp_eq_compare, ← cmp_eq_compare]
    exact (StrictAnti.cmp_map_eq (fun _ _ h => neg_lt_neg h) _ _).symm

/-- Two decimals are the same number just if they denote one. -/
theorem sameNumber_iff {d e : Decimal} : d.sameNumber e = true ↔ d.value = e.value := by
  rw [sameNumber, order_eq_compare, beq_iff_eq, compare_eq_iff_eq]

end Decimal

end Criterion
