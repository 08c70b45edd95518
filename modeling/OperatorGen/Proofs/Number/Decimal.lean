import Mathlib.Algebra.Order.Field.Power
import OperatorGen.Number.Decimal
import OperatorGen.Proofs.Number.Rounding

/-!
# The double of a decimal

A decimal is converted to the double that its exact value is rounded to
(`nearestPlace_toBinary64`). Magnitudes far outside the range of doubles are not computed: how
many digits a decimal has tells that it is beyond all doubles, or next to zero.
-/
namespace OperatorGen.Decimal

open Binary64

/-- The exact value of a decimal. -/
def value (d : Decimal) : ℚ :=
  (if d.negative then -1 else 1) * (d.significand * 10 ^ d.exponent)

/-! ## Digits -/

theorem lt_pow_digitCount (n : ℕ) : n < 10 ^ digitCount n :=
  (Nat.length_toDigits_le_iff (by decide) Nat.length_toDigits_pos).mp (le_refl _)

theorem pow_digitCount_le {n : ℕ} (some : n ≠ 0) : 10 ^ (digitCount n - 1) ≤ n := by
  by_contra fewer
  have below : n < 10 ^ (digitCount n - 1) := Nat.lt_of_not_le fewer
  rcases Nat.eq_zero_or_pos (digitCount n - 1) with none | positive
  · rw [none, Nat.pow_zero] at below
    omega
  · have short : digitCount n ≤ digitCount n - 1 :=
      (Nat.length_toDigits_le_iff (by decide) positive).mpr below
    omega

section
variable {significand : ℕ} {exponent : ℤ}

/-- So many digits in front of the point are beyond all doubles, if that power of ten is. -/
theorem beyond_of_digits {k : ℕ} (limit : overflowUnits ≤ 10 ^ k * unitsPerOne)
    (some : significand ≠ 0) (many : (k : ℤ) < digitCount significand + exponent) :
    (overflowUnits : ℚ) ≤ significand * 10 ^ exponent * unitsPerOne := by
  have unit := unitsPerOne_pos
  have leading : (k : ℤ) ≤ (digitCount significand - 1 : ℕ) + exponent := by
    have digits : 0 < digitCount significand := Nat.length_toDigits_pos
    omega
  have magnitude : (10 : ℚ) ^ k ≤ significand * 10 ^ exponent := by
    calc (10 : ℚ) ^ k = 10 ^ (k : ℤ) := (zpow_natCast _ _).symm
      _ ≤ 10 ^ (((digitCount significand - 1 : ℕ) : ℤ) + exponent) :=
          zpow_le_zpow_right₀ (by norm_num) leading
      _ = (10 ^ (digitCount significand - 1) : ℕ) * 10 ^ exponent := by
          rw [zpow_add₀ (by norm_num), zpow_natCast, Nat.cast_pow, Nat.cast_ofNat]
      _ ≤ significand * 10 ^ exponent :=
          mul_le_mul_of_nonneg_right (Nat.cast_le.mpr (pow_digitCount_le some)) (by positivity)
  calc (overflowUnits : ℚ) ≤ (10 ^ k * unitsPerOne : ℕ) := Nat.cast_le.mpr limit
    _ = 10 ^ k * unitsPerOne := by rw [Nat.cast_mul, Nat.cast_pow, Nat.cast_ofNat]
    _ ≤ significand * 10 ^ exponent * unitsPerOne := mul_le_mul_of_nonneg_right magnitude unit.le

/-- So many zeros behind the point are less than half a unit, if that negative power of ten is. -/
theorem small_of_digits {k : ℕ} (limit : 2 * unitsPerOne < 10 ^ k)
    (few : (digitCount significand : ℤ) + exponent < -k) :
    (significand : ℚ) * 10 ^ exponent * unitsPerOne < 1 / 2 := by
  have unit := unitsPerOne_pos
  have magnitude : (significand : ℚ) * 10 ^ exponent ≤ (10 ^ k)⁻¹ := by
    calc (significand : ℚ) * 10 ^ exponent
        ≤ (10 ^ digitCount significand : ℕ) * 10 ^ exponent :=
          mul_le_mul_of_nonneg_right (Nat.cast_le.mpr (lt_pow_digitCount significand).le)
            (by positivity)
      _ = 10 ^ ((digitCount significand : ℤ) + exponent) := by
          rw [zpow_add₀ (by norm_num), zpow_natCast, Nat.cast_pow, Nat.cast_ofNat]
      _ ≤ 10 ^ (-k : ℤ) := zpow_le_zpow_right₀ (by norm_num) few.le
      _ = (10 ^ k)⁻¹ := by rw [zpow_neg, zpow_natCast]
  have half : (10 ^ k)⁻¹ * (unitsPerOne : ℚ) < 1 / 2 := by
    have limit' : 2 * (unitsPerOne : ℚ) < 10 ^ k := by exact_mod_cast limit
    rw [inv_mul_lt_iff₀ (by positivity)]
    linarith
  calc (significand : ℚ) * 10 ^ exponent * unitsPerOne
      ≤ (10 ^ k)⁻¹ * unitsPerOne := mul_le_mul_of_nonneg_right magnitude unit.le
    _ < 1 / 2 := half

end

/-! ## Conversion -/

section
variable {d : Decimal}

/-- A decimal that is rounded to zero gets the place of the zeros. -/
theorem nearestPlace_zero
    (rounds : RoundsTo (d.significand * 10 ^ d.exponent * unitsPerOne) 0) :
    NearestPlace d.value (signed d.negative 0) := by
  have placed := NearestPlace.of_magnitude (by positivity) rounds d.negative
  rwa [Nat.zero_min] at placed

/-- A decimal beyond all doubles gets the place of an infinity. -/
theorem nearestPlace_infinite
    (beyond : (overflowUnits : ℚ) ≤ d.significand * 10 ^ d.exponent * unitsPerOne) :
    NearestPlace d.value (signed d.negative overflowUnits) := by
  have natural : 0 ≤ (d.significand : ℚ) * 10 ^ d.exponent := by positivity
  obtain ⟨units, rounds⟩ := exists_roundsTo (mul_nonneg natural unitsPerOne_pos.le)
  have placed := NearestPlace.of_magnitude natural rounds d.negative
  rwa [Nat.min_eq_right (rounds.overflows beyond)] at placed

end

/-- The magnitude of a decimal as a quotient of natural numbers. -/
theorem magnitude_eq (significand : ℕ) (exponent : ℤ) :
    (significand : ℚ) * 10 ^ exponent =
      if 0 ≤ exponent then ((significand * Nat.pow 10 exponent.toNat : ℕ) : ℚ) / (1 : ℕ)
      else significand / (Nat.pow 10 (-exponent).toNat : ℕ) := by
  have power (k : ℕ) : ((Nat.pow 10 k : ℕ) : ℚ) = 10 ^ (k : ℤ) := by
    rw [zpow_natCast]
    exact_mod_cast rfl
  split
  · next whole => rw [Nat.cast_mul, power, Int.toNat_of_nonneg whole, Nat.cast_one, div_one]
  · next fractional =>
    rw [power, Int.toNat_of_nonneg (by omega), zpow_neg, div_inv_eq_mul]

/-- A decimal is converted to the double that its value is rounded to. -/
theorem nearestPlace_toBinary64 (d : Decimal) :
    ∃ place, d.toBinary64.place = some place ∧ NearestPlace d.value place := by
  have natural : 0 ≤ (d.significand : ℚ) * 10 ^ d.exponent := by positivity
  unfold toBinary64
  simp only
  split
  · next none =>
    have zero : (d.significand : ℚ) * 10 ^ d.exponent * unitsPerOne = 0 := by
      rw [none, Nat.cast_zero, zero_mul, zero_mul]
    refine ⟨_, rfl, nearestPlace_zero ?_⟩
    rw [zero]
    exact .zero_of_lt (le_refl 0) (by norm_num)
  · next some =>
    split
    · next many =>
      refine ⟨_, rfl, nearestPlace_infinite (beyond_of_digits ?_ some many)⟩
      decide +kernel
    · split
      · next few =>
        refine ⟨_, rfl, nearestPlace_zero (.zero_of_lt ?_ (small_of_digits ?_ few))⟩
        · exact mul_nonneg natural unitsPerOne_pos.le
        · decide +kernel
      · have exact := magnitude_eq d.significand d.exponent
        split
        · next whole =>
          rw [if_pos whole] at exact
          rw [value, exact]
          exact nearestPlace_ofRatio d.negative _ Nat.one_pos
        · next fractional =>
          rw [if_neg fractional] at exact
          rw [value, exact]
          exact nearestPlace_ofRatio d.negative _ (Nat.pow_pos (by decide))

end OperatorGen.Decimal
