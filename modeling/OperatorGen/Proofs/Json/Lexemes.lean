import OperatorGen.Json.Token
import Mathlib.Data.List.TakeDrop

/-!
# The grammar of numbers and strings

Which characters spell a numeral (`Numeral.Spells`) and the pieces of a string
(`Text.Spells`), after the grammar of JSON. What is spelled is scanned as what it spells, in
front of anything that a number does not go on with.
-/
namespace OperatorGen.Json

namespace Numeral

/-! ## Numbers -/

/-- At least one digit, and nothing else. -/
structure Digits (chars : List Char) : Prop where
  nonempty : chars ≠ []
  digit : ∀ c ∈ chars, c.isDigit = true

theorem Digits.eq_cons {digits : List Char} (present : Digits digits) :
    ∃ c tail, digits = c :: tail ∧ c.isDigit = true := by
  cases digits with
  | nil => exact absurd rfl present.nonempty
  | cons c tail => exact ⟨c, tail, rfl, present.digit c List.mem_cons_self⟩

/-- The characters of a sign, which can only be a minus. -/
def minus (negative : Bool) : List Char :=
  if negative then ['-'] else []

/-- A point and digits, or nothing at all. -/
inductive SpellsFraction : List Char → List Char → Prop
  | nothing : SpellsFraction [] []
  | point {digits : List Char} (present : Digits digits) : SpellsFraction digits ('.' :: digits)

/-- A mark, a sign that may be left out where it is a plus, and digits; or nothing at all. -/
inductive SpellsExponent : Option (Bool × List Char) → List Char → Prop
  | nothing : SpellsExponent none []
  | unsigned {mark : Char} {digits : List Char} (marks : mark = 'e' ∨ mark = 'E')
      (present : Digits digits) : SpellsExponent (some (false, digits)) (mark :: digits)
  | plus {mark : Char} {digits : List Char} (marks : mark = 'e' ∨ mark = 'E')
      (present : Digits digits) : SpellsExponent (some (false, digits)) (mark :: '+' :: digits)
  | minus {mark : Char} {digits : List Char} (marks : mark = 'e' ∨ mark = 'E')
      (present : Digits digits) : SpellsExponent (some (true, digits)) (mark :: '-' :: digits)

/-- A numeral and its characters. Only a zero alone begins with a zero. -/
inductive Spells : Numeral → List Char → Prop
  | intro {negative : Bool} {whole fraction : List Char} {exponent : Option (Bool × List Char)}
      {afterPoint afterMark : List Char} (present : Digits whole)
      (zero : whole.head? = some '0' → whole.length = 1)
      (fractional : SpellsFraction fraction afterPoint)
      (scaled : SpellsExponent exponent afterMark) :
    Spells ⟨negative, whole, fraction, exponent⟩
      (minus negative ++ (whole ++ (afterPoint ++ afterMark)))

/-- No number goes on with these characters. -/
def Ends (rest : List Char) : Prop :=
  ∀ c ∈ rest.head?, c.isDigit = false ∧ c ≠ '.' ∧ c ≠ 'e' ∧ c ≠ 'E'

/-- No digit is first. -/
def NoDigit (rest : List Char) : Prop :=
  ∀ c ∈ rest.head?, c.isDigit = false

theorem Ends.noDigit {rest : List Char} (ends : Ends rest) : NoDigit rest :=
  fun c first => (ends c first).1

/-- Digits are split off in front of anything that does not begin with one. -/
theorem NoDigit.span {digits rest : List Char} (noDigit : NoDigit rest)
    (digit : ∀ c ∈ digits, c.isDigit = true) :
    (digits ++ rest).span Char.isDigit = (digits, rest) := by
  rw [List.span_eq_takeWhile_dropWhile, List.takeWhile_append_of_pos digit,
    List.dropWhile_append_of_pos digit]
  cases rest with
  | nil => simp
  | cons c rest => simp [noDigit c rfl]

theorem Digits.scan {digits rest : List Char} (present : Digits digits) (noDigit : NoDigit rest) :
    scanDigits (digits ++ rest) = .ok (digits, rest) := by
  have split := noDigit.span present.digit
  have noneLeft : digits.isEmpty = false := List.isEmpty_eq_false_iff.mpr present.nonempty
  simp only [scanDigits, split, noneLeft, Bool.false_eq_true, if_false]

theorem scanWhole_of_digits {digits rest : List Char} (present : Digits digits)
    (zero : digits.head? = some '0' → digits.length = 1) (noDigit : NoDigit rest) :
    scanWhole (digits ++ rest) = .ok (digits, rest) := by
  have noZero : ¬ (digits.head? = some '0' ∧ digits.length ≠ 1) :=
    fun ⟨leading, long⟩ => long (zero leading)
  rw [scanWhole, present.scan noDigit]
  simp only [bind, Except.bind, if_neg noZero]

theorem scanExponent_of_ends {rest : List Char} (ends : Ends rest) :
    scanExponent rest = .ok (none, rest) := by
  cases rest with
  | nil => rfl
  | cons c rest =>
    obtain ⟨-, -, lower, upper⟩ := ends c rfl
    rw [scanExponent, if_neg (not_or.mpr ⟨lower, upper⟩)]

theorem SpellsExponent.scan {exponent : Option (Bool × List Char)} {chars rest : List Char}
    (spelled : SpellsExponent exponent chars) (ends : Ends rest) :
    scanExponent (chars ++ rest) = .ok (exponent, rest) := by
  cases spelled with
  | nothing => exact scanExponent_of_ends ends
  | @unsigned mark digits marks present =>
    -- A digit is no sign.
    have signless : Literal.splitSign (digits ++ rest) = (false, digits ++ rest) := by
      obtain ⟨c, tail, rfl, digit⟩ := present.eq_cons
      rw [List.cons_append, Literal.splitSign.eq_def]
      split
      · next same => rw [(List.cons.inj same).1] at digit; cases digit
      · next same => rw [(List.cons.inj same).1] at digit; cases digit
      · rfl
    rw [List.cons_append, scanExponent, if_pos marks, signless]
    simp only [present.scan ends.noDigit, bind, Except.bind]
  | plus marks present =>
    rw [List.cons_append, List.cons_append, scanExponent, if_pos marks]
    simp only [Literal.splitSign, present.scan ends.noDigit, bind, Except.bind]
  | minus marks present =>
    rw [List.cons_append, List.cons_append, scanExponent, if_pos marks]
    simp only [Literal.splitSign, present.scan ends.noDigit, bind, Except.bind]

/-- What follows a fraction is no digit, and not a second point. -/
theorem SpellsExponent.noDigit {exponent : Option (Bool × List Char)} {chars rest : List Char}
    (spelled : SpellsExponent exponent chars) (ends : Ends rest) :
    ∀ c ∈ (chars ++ rest).head?, c.isDigit = false ∧ c ≠ '.' := by
  cases spelled with
  | nothing => exact fun c first => ⟨(ends c first).1, (ends c first).2.1⟩
  | unsigned marks _ | plus marks _ | minus marks _ =>
    intro c first
    obtain rfl := Option.some.inj first
    rcases marks with rfl | rfl <;> decide

theorem SpellsFraction.scan {fraction chars rest : List Char}
    (spelled : SpellsFraction fraction chars)
    (ends : ∀ c ∈ rest.head?, c.isDigit = false ∧ c ≠ '.') :
    scanFraction (chars ++ rest) = .ok (fraction, rest) := by
  cases spelled with
  | nothing =>
    rw [List.nil_append, scanFraction.eq_def]
    split
    · exact absurd rfl (ends _ rfl).2
    · rfl
  | point present =>
    rw [List.cons_append, scanFraction]
    exact present.scan fun c first => (ends c first).1

/-- What follows the whole part is no digit. -/
theorem SpellsFraction.noDigit {fraction chars rest : List Char}
    (spelled : SpellsFraction fraction chars)
    (ends : ∀ c ∈ rest.head?, c.isDigit = false ∧ c ≠ '.') : NoDigit (chars ++ rest) := by
  cases spelled with
  | nothing => exact fun c first => (ends c first).1
  | point _ =>
    intro c first
    obtain rfl := Option.some.inj first
    rfl

theorem splitMinus_minus {digits : List Char} (negative : Bool) (present : Digits digits)
    (rest : List Char) :
    splitMinus (minus negative ++ (digits ++ rest)) = (negative, digits ++ rest) := by
  cases negative with
  | true => rfl
  | false =>
    obtain ⟨c, tail, rfl, digit⟩ := present.eq_cons
    rw [minus, if_neg Bool.false_ne_true, List.nil_append, List.cons_append, splitMinus.eq_def]
    split
    · next same => rw [(List.cons.inj same).1] at digit; cases digit
    · rfl

/-- A spelled numeral is scanned as it is. -/
theorem Spells.scan {n : Numeral} {chars rest : List Char} (spelled : n.Spells chars)
    (ends : Ends rest) : Numeral.scan (chars ++ rest) = .ok (n, rest) := by
  cases spelled with
  | @intro negative whole fraction exponent afterPoint afterMark present zero fractional scaled =>
    have afterFraction := scaled.noDigit ends
    have noDigit := fractional.noDigit afterFraction
    rw [Numeral.scan, List.append_assoc, List.append_assoc, List.append_assoc,
      splitMinus_minus negative present]
    simp only [scanWhole_of_digits present zero noDigit, fractional.scan afterFraction,
      scaled.scan ends, bind, Except.bind]

/-- A numeral begins with a minus or a digit. -/
theorem Spells.eq_cons {n : Numeral} {chars : List Char} (spelled : n.Spells chars) :
    ∃ c tail, chars = c :: tail ∧ (c = '-' ∨ c.isDigit = true) := by
  cases spelled with
  | @intro negative whole fraction exponent afterPoint afterMark present zero fractional scaled =>
    cases negative with
    | true => exact ⟨'-', _, rfl, .inl rfl⟩
    | false =>
      obtain ⟨c, tail, rfl, digit⟩ := present.eq_cons
      exact ⟨c, _, rfl, .inr digit⟩

end Numeral

/-! ## Strings -/

namespace Text

/-- The ways to write a piece: a character as it is or by a letter, a unit by its digits. -/
inductive Piece.Spells : Piece → List Char → Prop
  | plain {c : Char} (visible : 0x20 ≤ c.toNat) (quote : c ≠ '"') (backslash : c ≠ '\\') :
    Spells (.char c) [c]
  | letter {letter c : Char} (escape : escaped? letter = some c) :
    Spells (.char c) ['\\', letter]
  | digits {a b c d : Char} {code : Nat} (value : unitValue? a b c d = some code) :
    Spells (.unit code) ['\\', 'u', a, b, c, d]

/-- Pieces and the characters that stand for them between quotes. -/
inductive Spells : List Piece → List Char → Prop
  | nil : Spells [] []
  | cons {piece : Piece} {pieces : List Piece} {first others : List Char}
      (spelled : piece.Spells first) (rest : Spells pieces others) :
    Spells (piece :: pieces) (first ++ others)

theorem scan_plain {c : Char} (visible : 0x20 ≤ c.toNat) (quote : c ≠ '"') (backslash : c ≠ '\\')
    (rest : List Char) : scan (c :: rest) = (.char c :: (scan rest).1, (scan rest).2) := by
  have noControl : ¬ c.toNat < 0x20 := Nat.not_lt.mpr visible
  rw [scan.eq_def]
  split <;> simp_all

theorem scan_letter {letter c : Char} (escape : escaped? letter = some c) (rest : List Char) :
    scan ('\\' :: letter :: rest) = (.char c :: (scan rest).1, (scan rest).2) := by
  have noUnit : letter ≠ 'u' := by rintro rfl; cases escape
  rw [scan.eq_def]
  split <;> grind

theorem Piece.Spells.scan {piece : Piece} {chars : List Char} (spelled : piece.Spells chars)
    (rest : List Char) :
    Text.scan (chars ++ rest) = (piece :: (Text.scan rest).1, (Text.scan rest).2) := by
  cases spelled with
  | plain visible quote backslash => exact scan_plain visible quote backslash rest
  | letter escape => exact scan_letter escape rest
  | digits value => simp only [List.cons_append, List.nil_append, Text.scan, value]

/-- Spelled pieces are scanned up to the closing quote. -/
theorem Spells.scan {pieces : List Piece} {chars : List Char} (spelled : Spells pieces chars)
    (rest : List Char) : Text.scan (chars ++ '"' :: rest) = (pieces, .ok rest) := by
  induction spelled with
  | nil => simp [Text.scan]
  | cons first _ ih => rw [List.append_assoc, first.scan, ih]

end Text
end OperatorGen.Json
