import Criterion.Datum.Shortest
import Criterion.Proofs.Decimal.Order
import Mathlib.Algebra.Order.Floor.Semifield
import Mathlib.Data.Rat.Floor
import Mathlib.Tactic.FieldSimp
import Mathlib.Tactic.Ring

/-!
# The digits of a binary64 number

The search for the shortest decimal of a number begins on the grid of its leading digit and goes on to
finer ones. The number is at least one step of each of these grids, so that the point which is chosen is
never zero; and with the tries that there are, and the range that the numbers have, both its digits and
their place stay small.

The steps that are counted are those of the number `m · 2^q` itself, although they are found with natural
numbers alone: a power with a negative exponent multiplies the other side of the quotient.
-/

namespace Criterion

/-! ## Powers on either side of a quotient -/

/-- A power with a negative exponent is one here, and stands on the other side instead. -/
theorem cast_pow_toNat {b : Nat} (hb : b ≠ 0) (e : Int) :
    ((b ^ e.toNat : Nat) : ℚ) = (b : ℚ) ^ e * ((b ^ (-e).toNat : Nat) : ℚ) := by
  have hne : (b : ℚ) ≠ 0 := Nat.cast_ne_zero.mpr hb
  obtain ⟨n, rfl | rfl⟩ := e.eq_nat_or_neg
  · simp
  · simp [hne]

theorem tenTo_eq_mul (e : Int) : (tenTo e : ℚ) = 10 ^ e * tenTo (-e) := cast_pow_toNat (by decide) e

theorem twoTo_eq_mul (e : Int) : (twoTo e : ℚ) = 2 ^ e * twoTo (-e) := cast_pow_toNat (by decide) e

theorem tenTo_ne_zero (e : Int) : (tenTo e : ℚ) ≠ 0 :=
  Nat.cast_ne_zero.mpr (Nat.pow_pos (by decide)).ne'

theorem twoTo_ne_zero (e : Int) : (twoTo e : ℚ) ≠ 0 :=
  Nat.cast_ne_zero.mpr (Nat.pow_pos (by decide)).ne'

namespace Binary64

/-! ## Steps of a grid -/

/-- The steps that are counted are those of the number itself. -/
theorem stepsBelow_eq_floor (m : Nat) (q p : Int) :
    stepsBelow m q p = ⌊(m : ℚ) * 2 ^ q / 10 ^ p⌋₊ := by
  have htwo := twoTo_ne_zero (-q)
  have hten := tenTo_ne_zero (-p)
  rw [stepsBelow, ← Nat.floor_div_eq_div (K := ℚ)]
  congr 1
  push_cast
  rw [twoTo_eq_mul q, tenTo_eq_mul p]
  field_simp

/-- The place is found by counting digits on a grid so fine that every number has some. -/
theorem leadingPlace_eq (m : Nat) (q : Int) :
    leadingPlace m q = (Decimal.digitCount (stepsBelow m q (-400)) : Int) - 401 := by
  have hone : tenTo (-400) = 1 := rfl
  rw [leadingPlace, stepsBelow, hone, mul_one, neg_neg]

section

variable {m : Nat} {q : Int}

/-- The steps that are counted do not go beyond the number. -/
theorem stepsBelow_le (p : Int) : (stepsBelow m q p : ℚ) * 10 ^ p ≤ m * 2 ^ q := by
  rw [stepsBelow_eq_floor, ← le_div_iff₀ (by positivity)]
  exact Nat.floor_le (by positivity)

/-- One step more does. -/
theorem lt_stepsBelow_add_one (p : Int) : (m : ℚ) * 2 ^ q < (stepsBelow m q p + 1) * 10 ^ p := by
  rw [stepsBelow_eq_floor, ← div_lt_iff₀ (by positivity)]
  exact Nat.lt_floor_add_one _

/-- A number that reaches the first point of a grid has a step of it. -/
theorem stepsBelow_pos {p : Int} (h : (10 : ℚ) ^ p ≤ m * 2 ^ q) : 0 < stepsBelow m q p := by
  rw [stepsBelow_eq_floor, Nat.floor_pos, le_div_iff₀ (by positivity), one_mul]
  exact h

/-- A number below a power of ten has fewer steps of a grid than that power has. -/
theorem stepsBelow_lt {p : Int} {k : Nat} (h : (m : ℚ) * 2 ^ q < 10 ^ (p + k)) :
    stepsBelow m q p < 10 ^ k := by
  have hpos : (0 : ℚ) < 10 ^ p := by positivity
  have hlt : (stepsBelow m q p : ℚ) * 10 ^ p < 10 ^ k * 10 ^ p := by
    rw [zpow_add₀ (by norm_num), zpow_natCast, mul_comm (10 ^ p : ℚ)] at h
    exact (stepsBelow_le p).trans_lt h
  exact_mod_cast lt_of_mul_lt_mul_right hlt hpos.le

/-- **The leading place is that of the first digit.** -/
theorem leadingPlace_spec (h : (10 : ℚ) ^ (-400 : Int) ≤ m * 2 ^ q) :
    (10 : ℚ) ^ leadingPlace m q ≤ m * 2 ^ q ∧ (m : ℚ) * 2 ^ q < 10 ^ (leadingPlace m q + 1) := by
  rw [leadingPlace_eq]
  constructor
  · have hle := Decimal.le_magnitude (stepsBelow_pos h) 400
    rw [sub_sub] at hle
    exact hle.trans (stepsBelow_le (-400))
  · have hsteps : (stepsBelow m q (-400) + 1 : ℚ) ≤
        10 ^ Decimal.digitCount (stepsBelow m q (-400)) := by
      exact_mod_cast Decimal.lt_pow_digitCount (stepsBelow m q (-400))
    have hexponent : (Decimal.digitCount (stepsBelow m q (-400)) : Int) - 401 + 1 =
        (Decimal.digitCount (stepsBelow m q (-400)) : Int) + -400 := by ring
    rw [hexponent, zpow_add₀ (by norm_num), zpow_natCast]
    exact (lt_stepsBelow_add_one (-400)).trans_le
      (mul_le_mul_of_nonneg_right hsteps (by positivity))

/-! ## The search -/

/-- A point of a grid next to the number: the one below it, or the one behind that. -/
def IsNeighbour (m : Nat) (q : Int) (s : Digits) : Prop :=
  s.digits = stepsBelow m q s.power ∨ s.digits = stepsBelow m q s.power + 1

/-- What is chosen on a grid is next to the number. -/
theorem isNeighbour_of_onGrid? {p : Int} {s : Digits} (h : onGrid? m q p = some s) :
    s.power = p ∧ IsNeighbour m q s := by
  unfold onGrid? at h
  dsimp only at h
  split at h
  · split at h
    · cases h
      exact ⟨rfl, .inr rfl⟩
    · cases h
      refine ⟨rfl, ?_⟩
      -- a tie goes to the even one of the two
      by_cases heven : stepsBelow m q p % 2 = 0
      · exact .inl (if_pos heven)
      · exact .inr (if_neg heven)
    · cases h
      exact ⟨rfl, .inl rfl⟩
  · split at h
    · cases h
      exact ⟨rfl, .inl rfl⟩
    · split at h
      · cases h
        exact ⟨rfl, .inr rfl⟩
      · cases h

/-- The search ends on one of the grids that it has tries for. -/
theorem firstGrid_spec (tries : Nat) (p : Int) :
    p - tries ≤ (firstGrid m q tries p).power ∧ (firstGrid m q tries p).power ≤ p ∧
      IsNeighbour m q (firstGrid m q tries p) := by
  -- a try without a hit goes one place further; with none left the point below is taken
  induction tries generalizing p with
  | zero => exact ⟨by simp [firstGrid], by simp [firstGrid], .inl rfl⟩
  | succ tries ih =>
      rw [firstGrid]
      cases hgrid : onGrid? m q p with
      | some s =>
          obtain ⟨hpower, hnext⟩ := isNeighbour_of_onGrid? hgrid
          rw [Option.getD_some]
          exact ⟨by omega, by omega, hnext⟩
      | none =>
          obtain ⟨hlow, hhigh, hnext⟩ := ih (p - 1)
          rw [Option.getD_none]
          exact ⟨by push_cast at hlow ⊢; omega, by omega, hnext⟩

end

/-! ## The range of the numbers -/

theorem two_zpow_le {j : Int} (h : 0 ≤ j) : (2 : ℚ) ^ (3 * j) ≤ 10 ^ j := by
  -- eight is below ten
  rw [zpow_mul]
  exact zpow_le_zpow_left₀ h (by norm_num) (by norm_num)

theorem ten_zpow_neg_le {j : Int} (h : 0 ≤ j) : (10 : ℚ) ^ (-j) ≤ 2 ^ (-(3 * j)) := by
  rw [zpow_neg, zpow_neg]
  exact inv_anti₀ (by positivity) (two_zpow_le h)

/-- The range of the numbers other than zero, in powers of ten and with room to spare. -/
theorem magnitude_mem {x : Binary64} (h : x.mantissa ≠ 0) :
    (10 : ℚ) ^ (-400 : Int) ≤ x.mantissa * 2 ^ x.exponent ∧
      (x.mantissa : ℚ) * 2 ^ x.exponent < 10 ^ (400 : Int) := by
  obtain ⟨hmantissa, hleast, hgreatest, -⟩ := x.canonical
  unfold leastMantissa leastExponent greatestExponent at *
  have hone : (1 : ℚ) ≤ x.mantissa := by exact_mod_cast Nat.one_le_iff_ne_zero.mpr h
  have hbits : (x.mantissa : ℚ) < 2 ^ (53 : Int) := by
    have hcast : (x.mantissa : ℚ) < (2 * 4503599627370496 : Nat) := by exact_mod_cast hmantissa
    exact hcast.trans_eq (by norm_num)
  constructor
  · calc (10 : ℚ) ^ (-400 : Int) ≤ 10 ^ (-358 : Int) :=
        zpow_le_zpow_right₀ (by norm_num) (by norm_num)
      _ ≤ 2 ^ (-(3 * 358) : Int) := ten_zpow_neg_le (by norm_num)
      _ ≤ 2 ^ x.exponent := zpow_le_zpow_right₀ (by norm_num) (by omega)
      _ ≤ x.mantissa * 2 ^ x.exponent := le_mul_of_one_le_left (by positivity) hone
  · calc (x.mantissa : ℚ) * 2 ^ x.exponent < 2 ^ (53 : Int) * 2 ^ x.exponent :=
        mul_lt_mul_of_pos_right hbits (by positivity)
      _ = 2 ^ (53 + x.exponent) := (zpow_add₀ (by norm_num) 53 x.exponent).symm
      _ ≤ 2 ^ (3 * 342 : Int) := zpow_le_zpow_right₀ (by norm_num) (by omega)
      _ ≤ 10 ^ (342 : Int) := two_zpow_le (by norm_num)
      _ ≤ 10 ^ (400 : Int) := zpow_le_zpow_right₀ (by norm_num) (by norm_num)

/-- **The shortest decimal has a digit other than zero**, and few digits at a place that is not far away.
-/
theorem shortest_spec {x : Binary64} (h : x.mantissa ≠ 0) :
    0 < x.shortest.digits ∧ Decimal.digitCount x.shortest.digits ≤ 19 ∧
      -417 ≤ x.shortest.power ∧ x.shortest.power < 400 := by
  obtain ⟨hleast, hgreatest⟩ := magnitude_mem h
  obtain ⟨hle, hlt⟩ := leadingPlace_spec hleast
  obtain ⟨hlow, hhigh, hnext⟩ :
      leadingPlace x.mantissa x.exponent - 17 ≤ x.shortest.power ∧
        x.shortest.power ≤ leadingPlace x.mantissa x.exponent ∧
        IsNeighbour x.mantissa x.exponent x.shortest := firstGrid_spec 17 _
  have habove : -400 ≤ leadingPlace x.mantissa x.exponent := by
    have hdigits := Decimal.digitCount_pos (stepsBelow x.mantissa x.exponent (-400))
    rw [leadingPlace_eq]
    omega
  have hbelow : leadingPlace x.mantissa x.exponent < 400 :=
    (zpow_lt_zpow_iff_right₀ (by norm_num : (1 : ℚ) < 10)).mp (hle.trans_lt hgreatest)
  -- the grid is no coarser than the leading place, and has at most seventeen places more
  have hsteps : 0 < stepsBelow x.mantissa x.exponent x.shortest.power :=
    stepsBelow_pos ((zpow_le_zpow_right₀ (by norm_num) hhigh).trans hle)
  have hfew : stepsBelow x.mantissa x.exponent x.shortest.power < 10 ^ 18 := by
    have hplace : leadingPlace x.mantissa x.exponent + 1 ≤ x.shortest.power + (18 : Nat) := by omega
    exact stepsBelow_lt (hlt.trans_le (zpow_le_zpow_right₀ (by norm_num) hplace))
  have hdigits : 0 < x.shortest.digits ∧ x.shortest.digits ≤ 10 ^ 18 := by
    rcases hnext with heq | heq
    · exact ⟨heq ▸ hsteps, heq ▸ hfew.le⟩
    · exact ⟨heq ▸ Nat.succ_pos _, heq ▸ hfew⟩
  have hcount : Decimal.digitCount x.shortest.digits ≤ 19 :=
    (Nat.length_toDigits_le_iff (by decide) (by decide)).mpr (hdigits.2.trans_lt (by decide))
  exact ⟨hdigits.1, hcount, by omega, by omega⟩

end Binary64

end Criterion
