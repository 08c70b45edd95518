import OperatorGen.Proofs.FirstError
import OperatorGen.Proofs.Json.Lexemes
import Mathlib.Algebra.Group.Int.Defs
import Mathlib.Algebra.Group.Nat.Defs

/-!
# Whole numbers as text

A whole number of 64 bits is read back from its text (`numeral_text`), in front of anything
that cannot go on with a number (`Numeral.Ends`). Every whole number that is read from a
text is one of 64 bits.
-/
namespace OperatorGen.Json

/-- Whole numbers are those of 64 bits, signed or not. -/
def Number.InRange : Number → Prop
  | .integer value => -2 ^ 63 ≤ value ∧ value < 2 ^ 64
  | .real _ _ => True

/-- A whole number of 64 bits. -/
def Number.IsWord (n : Number) : Prop :=
  ∃ value, n = .integer value ∧ -2 ^ 63 ≤ value ∧ value < 2 ^ 64

/-! ## Digits -/

/-- The digits of a number begin with a digit. -/
theorem toDigits_eq_cons (n : Nat) :
    ∃ c tail, Nat.toDigits 10 n = c :: tail ∧ c.isDigit = true := by
  rcases digits : Nat.toDigits 10 n with _ | ⟨c, tail⟩
  · exact absurd digits Nat.toDigits_ne_nil
  · have member : c ∈ Nat.toDigits 10 n := by rw [digits]; exact List.mem_cons_self
    exact ⟨c, tail, rfl, Nat.isDigit_of_mem_toDigits (by decide) (by decide) member⟩

/-- Only zero is written with a zero in front. -/
theorem head_toDigits_ne_zero {n : Nat} (positive : 0 < n) :
    (Nat.toDigits 10 n).head? ≠ some '0' := by
  induction n using Nat.strongRecOn with
  | ind n ih =>
    by_cases small : n < 10
    · rw [Nat.toDigits_of_lt_base small]
      intro zero
      have digit : n.digitChar = '0' := Option.some.inj zero
      have value := Nat.toNat_digitChar_sub_48_of_lt_ten small
      rw [digit] at value
      simp at value
      omega
    · have tenth : 0 < n / 10 := Nat.div_pos (Nat.le_of_not_lt small) (by decide)
      have higher := ih (n / 10) (by omega) tenth
      obtain ⟨c, tail, digits, -⟩ := toDigits_eq_cons (n / 10)
      rw [Nat.toDigits_of_base_le (by decide) (Nat.le_of_not_lt small), digits]
      rwa [digits] at higher

theorem digits_toDigits (n : Nat) : ∀ c ∈ Nat.toDigits 10 n, c.isDigit = true :=
  fun _ member => Nat.isDigit_of_mem_toDigits (by decide) (by decide) member

theorem ofDigits_toDigits (n : Nat) : Decimal.ofDigits (Nat.toDigits 10 n) = n :=
  Nat.ofDigitChars_ten_toDigits

namespace Numeral

/-! ## Scanning -/

/-- The digits of a number spell it as a numeral, behind a minus if it is negative. -/
theorem spells_toDigits (negative : Bool) (n : Nat) :
    Spells ⟨negative, Nat.toDigits 10 n, [], none⟩ (minus negative ++ Nat.toDigits 10 n) := by
  have present : Digits (Nat.toDigits 10 n) := ⟨Nat.toDigits_ne_nil, digits_toDigits n⟩
  have zero : (Nat.toDigits 10 n).head? = some '0' → (Nat.toDigits 10 n).length = 1 := by
    intro leading
    rcases Nat.eq_zero_or_pos n with rfl | positive
    · rw [Nat.toDigits_zero, List.length_singleton]
    · exact absurd leading (head_toDigits_ne_zero positive)
  have spelled : Spells ⟨negative, Nat.toDigits 10 n, [], none⟩
      (minus negative ++ (Nat.toDigits 10 n ++ ([] ++ []))) :=
    .intro present zero .nothing .nothing
  rwa [List.append_nil, List.append_nil] at spelled

/-! ## Values -/

/-- Whole numbers that are read are in range. -/
theorem inRange_of_number {n : Numeral} {value : Number} (denoted : n.number = .ok value) :
    value.InRange := by
  have size : UInt64.size = 2 ^ 64 := rfl
  simp only [number] at denoted
  split at denoted
  · next fits =>
    cases denoted
    simp only [Bool.and_eq_true, decide_eq_true_eq] at fits
    simp only [Number.InRange]
    omega
  · split at denoted
    · next fits =>
      cases denoted
      simp only [Bool.and_eq_true, decide_eq_true_eq] at fits
      simp only [Number.InRange]
      omega
    · rw [real, bind_ok_iff] at denoted
      obtain ⟨units, -, same⟩ := denoted
      cases same
      trivial

theorem number_toDigits {n : Nat} (fits : n < 2 ^ 64) :
    number ⟨false, Nat.toDigits 10 n, [], none⟩ = .ok (.integer n) := by
  have inRange : decide (n < UInt64.size) = true := decide_eq_true fits
  simp only [number, ofDigits_toDigits, inRange]
  rfl

theorem number_minus_toDigits {n : Nat} (positive : 0 < n) (fits : n ≤ 2 ^ 63) :
    number ⟨true, Nat.toDigits 10 n, [], none⟩ = .ok (.integer (-n)) := by
  have inRange : decide (n ≤ UInt64.size / 2) = true := decide_eq_true fits
  have notZero : decide (n ≠ 0) = true := decide_eq_true (Nat.ne_of_gt positive)
  simp only [number, ofDigits_toDigits, inRange, notZero]
  rfl

end Numeral

/-! ## Tokens -/

/-- The characters of a whole number: its digits, behind a minus if it is negative. -/
theorem toList_integer (value : Int) :
    (Number.integer value).text.toList =
      if 0 ≤ value then Nat.toDigits 10 value.toNat else '-' :: Nat.toDigits 10 (-value).toNat := by
  rw [Number.text, Int.toString_eq_repr, Int.repr_eq_if]
  split
  · exact Nat.toList_repr
  · rw [String.toList_append, Nat.toList_repr]
    rfl

/-- The text of a whole number of 64 bits spells a numeral that denotes the number. -/
theorem exists_spells_text {n : Number} (word : n.IsWord) :
    ∃ numeral : Numeral, numeral.Spells n.text.toList ∧ numeral.number = .ok n := by
  obtain ⟨value, rfl, low, high⟩ := word
  rw [toList_integer]
  by_cases natural : 0 ≤ value
  · have denoted := Numeral.number_toDigits (show value.toNat < 2 ^ 64 by omega)
    rw [Int.toNat_of_nonneg natural] at denoted
    rw [if_pos natural]
    exact ⟨_, Numeral.spells_toDigits false value.toNat, denoted⟩
  · have denoted := Numeral.number_minus_toDigits (show 0 < (-value).toNat by omega)
      (show (-value).toNat ≤ 2 ^ 63 by omega)
    have same : -((-value).toNat : Int) = value := by omega
    rw [same] at denoted
    rw [if_neg natural]
    exact ⟨_, Numeral.spells_toDigits true (-value).toNat, denoted⟩

end OperatorGen.Json
