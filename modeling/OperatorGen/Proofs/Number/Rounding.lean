import Mathlib.Algebra.Order.Field.Basic
import Mathlib.Algebra.Order.Ring.Abs
import Mathlib.Data.Nat.Cast.Order.Field
import Mathlib.Data.Rat.Cast.Order
import Mathlib.Tactic.FieldSimp
import Mathlib.Tactic.Linarith
import Mathlib.Tactic.Ring
import OperatorGen.Number.Binary64

/-!
# Rounding to the nearest double

Which double a number is rounded to is said here without an algorithm (`RoundsTo`): one of the
magnitudes that 53 significant bits hold, to which none of the others is nearer, and whose last
bit is zero if another is equally near. There is only one (`RoundsTo.unique`), because of two
neighbours one ends in a one; a greater number is never rounded to a smaller double
(`RoundsTo.mono`); and the algorithm finds it (`roundsTo_nearestUnits`). All magnitudes count
units, and those beyond every finite double share the place of the infinity (`NearestPlace`).
-/
namespace OperatorGen.Binary64

/-- A whole number that so many significant bits hold. -/
def Holds (bits units : ℕ) : Prop :=
  ∃ significand exponent, significand < 2 ^ bits ∧ units = significand * 2 ^ exponent

/-- The last of the 53 significant bits is zero. -/
def EndsInZero (units : ℕ) : Prop :=
  ∃ half, Holds 52 half ∧ units = 2 * half

/-- Correct rounding of a magnitude: to nearest, and of two that are equally near to the one that
    ends in a zero. -/
structure RoundsTo (x : ℚ) (units : ℕ) : Prop where
  holds : Holds 53 units
  nearest : ∀ other, Holds 53 other → |x - units| ≤ |x - other|
  even : ∀ other, Holds 53 other → other ≠ units → |x - other| = |x - units| → EndsInZero units

/-! ## Nearness -/

section
variable {x a b : ℚ}

/-- Of two points, the lower one is nearer to what does not lie above their middle. -/
theorem lower_nearer_iff (apart : a < b) : |x - a| ≤ |x - b| ↔ 2 * x ≤ a + b := by
  have gap : 0 < b - a := sub_pos.mpr apart
  have squares : (x - b) ^ 2 - (x - a) ^ 2 = (b - a) * (a + b - 2 * x) := by ring
  rw [← sq_le_sq, ← sub_nonneg, squares, mul_nonneg_iff_of_pos_left gap, sub_nonneg]

theorem upper_nearer_iff (apart : a < b) : |x - b| ≤ |x - a| ↔ a + b ≤ 2 * x := by
  -- The same about the points on the other side of zero.
  have mirrored := lower_nearer_iff (x := -x) (neg_lt_neg apart)
  rw [neg_sub_neg, neg_sub_neg, abs_sub_comm, abs_sub_comm a] at mirrored
  rw [mirrored]
  constructor <;> intro order <;> linarith

end

/-- Between two doubles that end in a zero there is another. -/
theorem exists_between {a b : ℕ} (zero : EndsInZero a) (zero' : EndsInZero b) (apart : a < b) :
    ∃ c, Holds 53 c ∧ a < c ∧ c < b := by
  obtain ⟨_, ⟨m, k, small, rfl⟩, rfl⟩ := zero
  obtain ⟨_, ⟨n, l, small', rfl⟩, rfl⟩ := zero'
  -- Both are multiples of twice the smaller of their steps, so one such step leads in between.
  rcases Nat.le_total k l with order | order
  · have multiple : 2 * 2 ^ k ∣ 2 * (n * 2 ^ l) - 2 * (m * 2 ^ k) :=
      Nat.dvd_sub (Nat.mul_dvd_mul_left 2 (Dvd.dvd.mul_left (Nat.pow_dvd_pow 2 order) n))
        (Nat.mul_dvd_mul_left 2 (Nat.dvd_mul_left _ _))
    have gap := Nat.le_of_dvd (Nat.sub_pos_of_lt apart) multiple
    have step : 0 < 2 ^ k := Nat.two_pow_pos k
    have next : (2 * m + 1) * 2 ^ k = 2 * (m * 2 ^ k) + 2 ^ k := by ring
    exact ⟨(2 * m + 1) * 2 ^ k, ⟨2 * m + 1, k, by omega, rfl⟩, by omega, by omega⟩
  · have multiple : 2 * 2 ^ l ∣ 2 * (n * 2 ^ l) - 2 * (m * 2 ^ k) :=
      Nat.dvd_sub (Nat.mul_dvd_mul_left 2 (Nat.dvd_mul_left _ _))
        (Nat.mul_dvd_mul_left 2 (Dvd.dvd.mul_left (Nat.pow_dvd_pow 2 order) m))
    have gap := Nat.le_of_dvd (Nat.sub_pos_of_lt apart) multiple
    have step : 0 < 2 ^ l := Nat.two_pow_pos l
    have positive : 0 < n := by
      rcases Nat.eq_zero_or_pos n with rfl | positive
      · simp at apart
      · exact positive
    have before : (2 * n - 1) * 2 ^ l = 2 * (n * 2 ^ l) - 2 ^ l := by
      rw [Nat.sub_mul, Nat.one_mul, Nat.mul_assoc]
    exact ⟨(2 * n - 1) * 2 ^ l, ⟨2 * n - 1, l, by omega, rfl⟩, by omega, by omega⟩

namespace RoundsTo

variable {x y : ℚ} {a b : ℕ}

/-- No number is rounded to two doubles, one less than the other. -/
theorem not_lt (first : RoundsTo x a) (second : RoundsTo x b) : ¬ a < b := by
  intro apart
  have below : (a : ℚ) < b := Nat.cast_lt.mpr apart
  have near := first.nearest b second.holds
  have near' := second.nearest a first.holds
  have tie := le_antisymm near' near
  have zero := first.even b second.holds (Nat.ne_of_gt apart) tie
  have zero' := second.even a first.holds (Nat.ne_of_lt apart) tie.symm
  obtain ⟨c, holds, above, under⟩ := exists_between zero zero' apart
  -- The one in between would be nearer, as the number is half way.
  have middle := (upper_nearer_iff below).mp near'
  have lower := (lower_nearer_iff (Nat.cast_lt.mpr above)).mp (first.nearest c holds)
  have inside : (c : ℚ) < b := Nat.cast_lt.mpr under
  linarith

theorem unique (first : RoundsTo x a) (second : RoundsTo x b) : a = b :=
  Nat.le_antisymm (Nat.le_of_not_lt (second.not_lt first)) (Nat.le_of_not_lt (first.not_lt second))

/-- Rounding keeps the order. -/
theorem mono (first : RoundsTo x a) (second : RoundsTo y b) (ordered : x ≤ y) : a ≤ b := by
  by_contra above
  have apart : b < a := Nat.lt_of_not_le above
  have below : (b : ℚ) < a := Nat.cast_lt.mpr apart
  have high := (upper_nearer_iff below).mp (first.nearest b second.holds)
  have low := (lower_nearer_iff below).mp (second.nearest a first.holds)
  have same : x = y := by linarith
  subst same
  exact second.not_lt first apart

/-- What 53 bits hold is not rounded. -/
theorem of_holds (holds : Holds 53 a) : RoundsTo a a where
  holds := holds
  nearest other _ := by
    rw [sub_self, abs_zero]
    exact abs_nonneg _
  even other _ differs tie := by
    rw [sub_self, abs_zero, abs_eq_zero, sub_eq_zero, Nat.cast_inj] at tie
    exact absurd tie.symm differs

/-- What is less than half a unit is rounded to zero. -/
theorem zero_of_lt (natural : 0 ≤ x) (small : x < 1 / 2) : RoundsTo x 0 := by
  have farther (other : ℕ) (differs : other ≠ 0) : |x - (0 : ℕ)| < |x - other| := by
    have unit : (1 : ℚ) ≤ other := by exact_mod_cast Nat.one_le_iff_ne_zero.mpr differs
    have above : |x - other| = other - x := by
      rw [abs_sub_comm, abs_of_nonneg]
      linarith
    rw [Nat.cast_zero, sub_zero, abs_of_nonneg natural, above]
    linarith
  constructor
  · exact ⟨0, 0, by decide, rfl⟩
  · intro other _
    rcases eq_or_ne other 0 with rfl | differs
    · exact le_refl _
    · exact (farther other differs).le
  · intro other _ differs tie
    exact absurd tie (farther other differs).ne'

end RoundsTo

/-! ## The algorithm -/

/-- A quotient is its whole part and a fraction, and twice the remainder tells on which side of one
    half the fraction lies. -/
theorem exists_fraction (numerator : ℕ) {denominator : ℕ} (positive : 0 < denominator) :
    ∃ part : ℚ, (numerator : ℚ) / denominator = (numerator / denominator : ℕ) + part ∧
      0 ≤ part ∧ part < 1 ∧
      (2 * (numerator % denominator) < denominator ↔ part < 1 / 2) ∧
      (denominator < 2 * (numerator % denominator) ↔ 1 / 2 < part) := by
  have scale : (0 : ℚ) < denominator := Nat.cast_pos.mpr positive
  refine ⟨(numerator % denominator : ℕ) / denominator, ?_, by positivity, ?_, ?_, ?_⟩
  · have division : (numerator : ℚ) =
        denominator * (numerator / denominator : ℕ) + (numerator % denominator : ℕ) := by
      exact_mod_cast (Nat.div_add_mod numerator denominator).symm
    rw [eq_comm, ← sub_eq_zero]
    field_simp
    linarith
  · rw [div_lt_one scale]
    exact_mod_cast Nat.mod_lt numerator positive
  · rw [div_lt_iff₀ scale, ← Nat.cast_lt (α := ℚ)]
    push_cast
    constructor <;> intro <;> linarith
  · rw [lt_div_iff₀ scale, ← Nat.cast_lt (α := ℚ)]
    push_cast
    constructor <;> intro <;> linarith

/-- A quotient is at most half away from the whole number that it is rounded to, which is even
    if the quotient is half way. -/
theorem roundHalfEven_spec (numerator : ℕ) {denominator : ℕ} (positive : 0 < denominator) :
    |(numerator : ℚ) / denominator - roundHalfEven numerator denominator| ≤ 1 / 2 ∧
      (|(numerator : ℚ) / denominator - roundHalfEven numerator denominator| = 1 / 2 →
        roundHalfEven numerator denominator % 2 = 0) := by
  obtain ⟨part, quotient, nonneg, below, less, more⟩ := exists_fraction numerator positive
  have above (whole : ℕ) : |(whole : ℚ) + part - (whole + 1 : ℕ)| = 1 - part := by
    rw [abs_sub_comm, abs_of_nonneg] <;> push_cast <;> linarith
  simp only [roundHalfEven, quotient]
  split
  · next under =>
    have small := less.mp under
    rw [add_sub_cancel_left, abs_of_nonneg nonneg]
    exact ⟨small.le, fun half => absurd half small.ne⟩
  · next notUnder =>
    split
    · next beyond =>
      have large := more.mp beyond
      rw [above]
      exact ⟨by linarith, fun half => by linarith⟩
    · next notBeyond =>
      have half : part = 1 / 2 :=
        le_antisymm (not_lt.mp fun beyond => notBeyond (more.mpr beyond))
          (not_lt.mp fun under => notUnder (less.mpr under))
      split
      · next even =>
        rw [add_sub_cancel_left, half]
        exact ⟨by norm_num, fun _ => even⟩
      · next odd =>
        rw [above, half]
        exact ⟨by norm_num, fun _ => by omega⟩

/-- A point at most half away from a whole number is at least half away from all others. -/
theorem half_le_of_ne {q : ℚ} {r k : ℕ} (near : |q - r| ≤ 1 / 2) (other : k ≠ r) :
    1 / 2 ≤ |q - k| := by
  have apart : (1 : ℚ) ≤ |(r : ℚ) - k| := by
    have unit : (1 : ℤ) ≤ |(r : ℤ) - k| := Int.one_le_abs (by omega)
    exact_mod_cast unit
  have triangle : |(r : ℚ) - k| ≤ |(r : ℚ) - q| + |q - k| := abs_sub_le _ _ _
  rw [abs_sub_comm (r : ℚ) q] at triangle
  linarith

/-- A double is on the grid of `2 ^ e` units, or it lies below the magnitudes whose 53 bits end on
    this grid. -/
theorem on_grid_or_below {other : ℕ} (holds : Holds 53 other) (e : ℕ) :
    (∃ t, other = t * 2 ^ e) ∨ e ≠ 0 ∧ other < 2 ^ 52 * 2 ^ e := by
  obtain ⟨m, k, small, rfl⟩ := holds
  rcases Nat.lt_or_ge k e with finer | coarser
  · refine .inr ⟨by omega, ?_⟩
    calc m * 2 ^ k < 2 ^ 53 * 2 ^ k := Nat.mul_lt_mul_of_pos_right small (Nat.two_pow_pos k)
      _ = 2 ^ 52 * 2 ^ (k + 1) := by ring
      _ ≤ 2 ^ 52 * 2 ^ e := Nat.mul_le_mul_left _ (Nat.pow_le_pow_right (by decide) finer)
  · refine .inl ⟨m * 2 ^ (k - e), ?_⟩
    rw [Nat.mul_assoc, ← Nat.pow_add, Nat.sub_add_cancel coarser]

/-- Rounding on a grid: `q` counts steps of `2 ^ e` units, and 53 bits hold so many. Above the
    finest grid the magnitude has all 53 bits. -/
theorem roundsTo_on_grid {q : ℚ} {e r : ℕ} (near : |q - r| ≤ 1 / 2)
    (even : |q - r| = 1 / 2 → r % 2 = 0) (fits : r ≤ 2 ^ 53) (full : e = 0 ∨ 2 ^ 52 ≤ q) :
    RoundsTo (q * 2 ^ e) (r * 2 ^ e : ℕ) := by
  have step : (0 : ℚ) < 2 ^ e := by positivity
  have distance (t : ℕ) : |q * 2 ^ e - (t * 2 ^ e : ℕ)| = |q - t| * 2 ^ e := by
    rw [Nat.cast_mul, Nat.cast_pow, Nat.cast_ofNat, ← sub_mul, abs_mul, abs_of_pos step]
  have nearest (t : ℕ) : |q - r| ≤ |q - t| := by
    rcases eq_or_ne t r with rfl | differs
    · exact le_refl _
    · exact near.trans (half_le_of_ne near differs)
  -- The least magnitude with all 53 bits is on the grid and nearer than all that lie below it.
  have cases (other : ℕ) (holds : Holds 53 other) : (∃ t : ℕ, other = t * 2 ^ e) ∨
      |q * 2 ^ e - (r * 2 ^ e : ℕ)| < |q * 2 ^ e - other| := by
    refine (on_grid_or_below holds e).imp_right fun ⟨coarse, under⟩ => ?_
    have normal : 2 ^ 52 ≤ q := full.resolve_left coarse
    have below : (other : ℚ) < 2 ^ 52 * 2 ^ e := by exact_mod_cast under
    have least := nearest (2 ^ 52)
    rw [Nat.cast_pow, Nat.cast_ofNat, abs_of_nonneg (sub_nonneg.mpr normal)] at least
    calc |q * 2 ^ e - (r * 2 ^ e : ℕ)| = |q - r| * 2 ^ e := distance r
      _ ≤ (q - 2 ^ 52) * 2 ^ e := mul_le_mul_of_nonneg_right least step.le
      _ = q * 2 ^ e - 2 ^ 52 * 2 ^ e := by ring
      _ < q * 2 ^ e - other := by linarith
      _ ≤ |q * 2 ^ e - other| := le_abs_self _
  constructor
  · rcases Nat.lt_or_eq_of_le fits with small | rfl
    · exact ⟨r, e, small, rfl⟩
    · exact ⟨1, 53 + e, by decide, by ring⟩
  · intro other holds
    rcases cases other holds with ⟨t, rfl⟩ | farther
    · rw [distance, distance]
      exact mul_le_mul_of_nonneg_right (nearest t) step.le
    · exact farther.le
  · intro other holds differs tie
    rcases cases other holds with ⟨t, rfl⟩ | farther
    · have another : t ≠ r := by
        rintro rfl
        exact differs rfl
      rw [distance, distance] at tie
      have same : |q - t| = |q - r| := mul_right_cancel₀ step.ne' tie
      have half : |q - r| = 1 / 2 := le_antisymm near (same ▸ half_le_of_ne near another)
      have twice := Nat.mul_div_cancel' (Nat.dvd_of_mod_eq_zero (even half))
      refine ⟨r / 2 * 2 ^ e, ?_, by rw [← Nat.mul_assoc, twice]⟩
      rcases Nat.lt_or_eq_of_le fits with small | rfl
      · exact ⟨r / 2, e, by omega, rfl⟩
      · exact ⟨1, 52 + e, by decide, by norm_num [pow_add]⟩
    · exact absurd tie farther.ne'

/-- The algorithm rounds correctly. -/
theorem roundsTo_nearestUnits (numerator : ℕ) {denominator : ℕ} (positive : 0 < denominator) :
    RoundsTo (numerator / denominator) (nearestUnits numerator denominator) := by
  obtain ⟨e, exponent⟩ : ∃ e, e = (numerator / denominator).log2 - 52 := ⟨_, rfl⟩
  have step : stepAt (numerator / denominator) = 2 ^ e := by
    rw [exponent]
    rfl
  have stepPositive : (0 : ℚ) < 2 ^ e := by positivity
  have scale : (0 : ℚ) < denominator := Nat.cast_pos.mpr positive
  obtain ⟨near, even⟩ := roundHalfEven_spec numerator
    (Nat.mul_pos positive (Nat.two_pow_pos e))
  have fits : numerator < 2 ^ 53 * (denominator * 2 ^ e) := by
    have bits : numerator / denominator < 2 ^ (e + 53) :=
      Nat.lt_log2_self.trans_le (Nat.pow_le_pow_right (by decide) (by omega))
    calc numerator < 2 ^ (e + 53) * denominator := (Nat.div_lt_iff_lt_mul positive).mp bits
      _ = 2 ^ 53 * (denominator * 2 ^ e) := by ring
  have quotient : (numerator : ℚ) / denominator =
      numerator / (denominator * 2 ^ e : ℕ) * 2 ^ e := by
    push_cast
    field_simp
  have below : (numerator : ℚ) / (denominator * 2 ^ e : ℕ) < 2 ^ 53 := by
    rw [div_lt_iff₀ (by push_cast; positivity)]
    exact_mod_cast fits
  rw [nearestUnits, step, quotient]
  refine roundsTo_on_grid near even ?_ ?_
  · have bound := (abs_le.mp near).1
    have close : (roundHalfEven numerator (denominator * 2 ^ e) : ℚ) < (2 ^ 53 + 1 : ℕ) := by
      push_cast
      linarith
    exact Nat.lt_succ_iff.mp (Nat.cast_lt.mp close)
  · rcases Nat.eq_zero_or_pos e with finest | coarser
    · exact .inl finest
    · right
      have some : numerator / denominator ≠ 0 := by
        intro none
        rw [none, Nat.log2_zero] at exponent
        omega
      have bits : 2 ^ (52 + e) ≤ numerator / denominator := by
        have exact : 52 + e = (numerator / denominator).log2 := by omega
        rw [exact]
        exact Nat.log2_self_le some
      have full := (Nat.le_div_iff_mul_le positive).mp bits
      rw [le_div_iff₀ (by push_cast; positivity)]
      have full' : 2 ^ 52 * (denominator * 2 ^ e) ≤ numerator := by
        calc 2 ^ 52 * (denominator * 2 ^ e) = 2 ^ (52 + e) * denominator := by ring
          _ ≤ numerator := full
      exact_mod_cast full'

/-- Every magnitude is rounded to a double. -/
theorem exists_roundsTo {x : ℚ} (natural : 0 ≤ x) : ∃ units, RoundsTo x units := by
  refine ⟨nearestUnits x.num.toNat x.den, ?_⟩
  have rounds := roundsTo_nearestUnits x.num.toNat x.den_pos
  have numerator : (x.num.toNat : ℚ) = x.num := by
    exact_mod_cast Int.toNat_of_nonneg (Rat.num_nonneg.mpr natural)
  rwa [numerator, Rat.num_div_den] at rounds

/-! ## Places -/

/-- The place among all doubles of the one that a number is rounded to. A magnitude that would be
    rounded beyond every finite double becomes infinite. -/
inductive NearestPlace : ℚ → ℤ → Prop
  | natural {x : ℚ} {units : ℕ} (sign : 0 ≤ x) (rounds : RoundsTo (x * unitsPerOne) units) :
    NearestPlace x (min units overflowUnits : ℕ)
  | negative {x : ℚ} {units : ℕ} (sign : x ≤ 0) (rounds : RoundsTo (-x * unitsPerOne) units) :
    NearestPlace x (-(min units overflowUnits : ℕ))

theorem unitsPerOne_pos : 0 < (unitsPerOne : ℚ) :=
  Nat.cast_pos.mpr (by decide +kernel)

/-- A zero is rounded to zero. -/
theorem RoundsTo.eq_zero {x : ℚ} {units : ℕ} (rounds : RoundsTo x units) (zero : x = 0) :
    units = 0 := by
  subst zero
  exact rounds.unique (.zero_of_lt (le_refl _) (by norm_num))

namespace NearestPlace

variable {x y : ℚ} {p q : ℤ}

/-- A greater number has no lower place. -/
theorem mono (first : NearestPlace x p) (second : NearestPlace y q) (ordered : x ≤ y) :
    p ≤ q := by
  have unit := unitsPerOne_pos
  cases first with
  | natural sign rounds =>
    cases second with
    | natural sign' rounds' =>
      have order := rounds.mono rounds' (mul_le_mul_of_nonneg_right ordered unit.le)
      exact_mod_cast min_le_min_right _ order
    | negative sign' rounds' =>
      have zero : x = 0 := le_antisymm (ordered.trans sign') sign
      have zero' : y = 0 := le_antisymm sign' (sign.trans ordered)
      rw [rounds.eq_zero (by rw [zero, zero_mul]),
        rounds'.eq_zero (by rw [zero', neg_zero, zero_mul])]
      simp
  | negative sign rounds =>
    cases second with
    | natural sign' rounds' => omega
    | negative sign' rounds' =>
      have order := rounds'.mono rounds (mul_le_mul_of_nonneg_right (neg_le_neg ordered) unit.le)
      exact neg_le_neg (by exact_mod_cast min_le_min_right _ order)

/-- A number has one place. -/
theorem unique (first : NearestPlace x p) (second : NearestPlace x q) : p = q :=
  le_antisymm (first.mono second (le_refl _)) (second.mono first (le_refl _))

/-- The place of a signed number, from its magnitude. -/
theorem of_magnitude {units : ℕ} (isNatural : 0 ≤ x) (rounds : RoundsTo (x * unitsPerOne) units)
    (isNegative : Bool) :
    NearestPlace ((if isNegative then -1 else 1) * x)
      (signed isNegative (min units overflowUnits)) := by
  cases isNegative with
  | false =>
    simp only [Bool.false_eq_true, if_false, one_mul, signed]
    exact .natural isNatural rounds
  | true =>
    simp only [if_true, neg_one_mul, signed]
    exact .negative (neg_nonpos.mpr isNatural) (by rwa [neg_neg])

end NearestPlace

/-- A magnitude at least as great as the least power of two beyond all finite doubles is rounded
    beyond them. -/
theorem RoundsTo.overflows {x : ℚ} {units : ℕ} (rounds : RoundsTo x units)
    (beyond : overflowUnits ≤ x) : overflowUnits ≤ units := by
  have holds : Holds 53 overflowUnits := ⟨1, 2098, by decide, by decide +kernel⟩
  exact (RoundsTo.of_holds holds).mono rounds beyond

theorem place_ofRatio (isNegative : Bool) (numerator denominator : ℕ) :
    (ofRatio isNegative numerator denominator).place = some (signed isNegative
      (min (nearestUnits (numerator * unitsPerOne) denominator) overflowUnits)) := by
  simp only [ofRatio]
  split
  · next finite => rw [place, Nat.min_eq_left finite.le]
  · next infinite => rw [place, Nat.min_eq_right (Nat.le_of_not_lt infinite)]

/-- A quotient with a sign gets the place that it is rounded to. -/
theorem nearestPlace_ofRatio (isNegative : Bool) (numerator : ℕ) {denominator : ℕ}
    (positive : 0 < denominator) :
    ∃ place, (ofRatio isNegative numerator denominator).place = some place ∧
      NearestPlace ((if isNegative then -1 else 1) * (numerator / denominator)) place := by
  refine ⟨_, place_ofRatio isNegative numerator denominator, ?_⟩
  have rounds := roundsTo_nearestUnits (numerator * unitsPerOne) positive
  rw [Nat.cast_mul, mul_div_right_comm] at rounds
  exact .of_magnitude (by positivity) rounds isNegative

end OperatorGen.Binary64
