import OperatorGen.Proofs.Json.Lexemes
import OperatorGen.Proofs.Number.Decimal

/-!
# The literals of bounds

Which texts are finite decimal literals, and the exact value that each of them writes
(`Literal.Denotes`): a sign, digits, a point with digits and an exponent, of which only some
digits must be there. These are the texts that are read as decimals (`Literal.denotes_iff`), so
a literal is converted to the double that its exact value is rounded to
(`Literal.Denotes.converts`).
-/
namespace OperatorGen.Literal

open Binary64 Decimal Json.Numeral

/-! ## Grammar -/

/-- A sign, which may be left out if it is a plus. -/
inductive SpellsSign : Bool → List Char → Prop
  | nothing : SpellsSign false []
  | plus : SpellsSign false ['+']
  | minus : SpellsSign true ['-']

/-- A point and digits, of which there may be none; or nothing at all. -/
inductive SpellsFraction : List Char → List Char → Prop
  | nothing : SpellsFraction [] []
  | point {digits : List Char} (digit : ∀ c ∈ digits, c.isDigit = true) :
    SpellsFraction digits ('.' :: digits)

/-- A mark, a sign and digits; or nothing at all. -/
inductive SpellsExponent : ℤ → List Char → Prop
  | nothing : SpellsExponent 0 []
  | marked {mark : Char} {negative : Bool} {sign digits : List Char}
      (marks : mark = 'e' ∨ mark = 'E') (isSign : SpellsSign negative sign)
      (present : Digits digits) :
    SpellsExponent (signed negative (ofDigits digits)) (mark :: (sign ++ digits))

/-- A text is a finite decimal literal, and writes a number. -/
inductive Denotes : String → ℚ → Prop
  | intro {negative : Bool} {sign whole fraction afterPoint afterMark : List Char} {exponent : ℤ}
      (isSign : SpellsSign negative sign) (digit : ∀ c ∈ whole, c.isDigit = true)
      (fractional : SpellsFraction fraction afterPoint)
      (scaled : SpellsExponent exponent afterMark) (some : whole ++ fraction ≠ []) :
    Denotes (String.ofList (sign ++ (whole ++ (afterPoint ++ afterMark))))
      ((if negative then -1 else 1) *
        ((ofDigits whole + ofDigits fraction / 10 ^ fraction.length) * 10 ^ exponent))

/-! ## Values -/

theorem ofDigits_append (whole fraction : List Char) :
    ofDigits (whole ++ fraction) = ofDigits whole * 10 ^ fraction.length + ofDigits fraction := by
  have shift (digits : List Char) (before : ℕ) :
      extend before digits = before * 10 ^ digits.length + ofDigits digits := by
    induction digits generalizing before with
    | nil => simp [extend, ofDigits]
    | cons c rest ih =>
      have front (total : ℕ) : extend total (c :: rest) = extend (10 * total + digitValue c) rest :=
        rfl
      rw [ofDigits, front, front, ih, ih (10 * 0 + digitValue c), List.length_cons]
      ring
  have split : ofDigits (whole ++ fraction) = extend (ofDigits whole) fraction :=
    List.foldl_append
  rw [split, shift]

/-- Digits behind a point count as an exponent. -/
theorem value_eq (negative : Bool) (whole fraction : List Char) (exponent : ℤ) :
    value ⟨negative, ofDigits (whole ++ fraction), exponent - fraction.length⟩ =
      (if negative then -1 else 1) *
        ((ofDigits whole + ofDigits fraction / 10 ^ fraction.length) * 10 ^ exponent) := by
  have power : (10 : ℚ) ^ (exponent - fraction.length) = 10 ^ exponent / 10 ^ fraction.length := by
    rw [zpow_sub₀ (by norm_num), zpow_natCast]
  rw [value, ofDigits_append, power]
  push_cast
  field_simp

/-! ## Reading -/

theorem SpellsSign.split {negative : Bool} {sign rest : List Char}
    (isSign : SpellsSign negative sign) (unsigned : ∀ c ∈ rest.head?, c ≠ '+' ∧ c ≠ '-') :
    splitSign (sign ++ rest) = (negative, rest) := by
  cases isSign with
  | nothing =>
    rw [List.nil_append, splitSign.eq_def]
    split
    · exact absurd rfl (unsigned _ rfl).2
    · exact absurd rfl (unsigned _ rfl).1
    · rfl
  | plus => rfl
  | minus => rfl

theorem exists_spellsSign (chars : List Char) :
    ∃ sign, SpellsSign (splitSign chars).1 sign ∧ sign ++ (splitSign chars).2 = chars := by
  rw [splitSign.eq_def]
  split
  · exact ⟨['-'], .minus, rfl⟩
  · exact ⟨['+'], .plus, rfl⟩
  · exact ⟨[], .nothing, rfl⟩

/-- A digit is no sign. -/
theorem ne_sign_of_isDigit {c : Char} (digit : c.isDigit = true) : c ≠ '+' ∧ c ≠ '-' := by
  constructor <;> rintro rfl <;> cases digit

theorem toLower_of_isDigit {c : Char} (digit : c.isDigit = true) : c.toLower = c := by
  have below : c.val ≤ '9'.val := by
    rw [Char.isDigit, Bool.and_eq_true] at digit
    exact of_decide_eq_true digit.2
  have notUpper : ¬ c.val ≥ 'A'.val := fun upper =>
    absurd (UInt32.le_trans upper below) (by decide)
  exact dif_neg fun upper => notUpper upper.1

theorem readExponent?_eq_some_iff {chars : List Char} {exponent : ℤ} :
    readExponent? chars = some exponent ↔ SpellsExponent exponent chars := by
  constructor
  · intro reads
    unfold readExponent? at reads
    split at reads
    · cases reads
      exact .nothing
    · next mark rest =>
      split at reads
      · next marks =>
        obtain ⟨sign, isSign, spelled⟩ := exists_spellsSign rest
        simp only at reads
        split at reads
        · cases reads
        · next present =>
          cases reads
          simp only [Bool.or_eq_true, List.isEmpty_iff, Bool.not_eq_true', not_or,
            Bool.not_eq_false, List.all_eq_true] at present
          have marked := SpellsExponent.marked marks isSign ⟨present.1, present.2⟩
          rwa [spelled] at marked
      · cases reads
  · intro spelled
    cases spelled with
    | nothing => rfl
    | @marked mark negative sign digits marks isSign present =>
      obtain ⟨c, tail, rfl, digit⟩ := present.eq_cons
      have split : splitSign (sign ++ c :: tail) = (negative, c :: tail) := by
        refine isSign.split fun first head => ?_
        obtain rfl := Option.some.inj head
        exact ne_sign_of_isDigit digit
      have all : (c :: tail).all Char.isDigit = true := List.all_eq_true.mpr present.digit
      simp only [readExponent?, if_pos marks, split, all]
      rfl

theorem SpellsExponent.noDigit {exponent : ℤ} {chars : List Char}
    (spelled : SpellsExponent exponent chars) :
    ∀ c ∈ chars.head?, c.isDigit = false ∧ c ≠ '.' := by
  cases spelled with
  | nothing => simp
  | marked marks _ _ =>
    intro c first
    obtain rfl := Option.some.inj first
    rcases marks with rfl | rfl <;> decide

theorem SpellsFraction.split {fraction chars rest : List Char}
    (spelled : SpellsFraction fraction chars)
    (ends : ∀ c ∈ rest.head?, c.isDigit = false ∧ c ≠ '.') :
    splitFraction (chars ++ rest) = (fraction, rest) := by
  cases spelled with
  | nothing =>
    rw [List.nil_append, splitFraction.eq_def]
    split
    · exact absurd rfl (ends _ rfl).2
    · rfl
  | point digit =>
    have noDigit : NoDigit rest := fun c first => (ends c first).1
    exact noDigit.span digit

theorem SpellsFraction.noDigit {fraction chars rest : List Char}
    (spelled : SpellsFraction fraction chars)
    (ends : ∀ c ∈ rest.head?, c.isDigit = false ∧ c ≠ '.') : NoDigit (chars ++ rest) := by
  cases spelled with
  | nothing => exact fun c first => (ends c first).1
  | point _ =>
    intro c first
    obtain rfl := Option.some.inj first
    rfl

theorem exists_spellsFraction (chars : List Char) :
    ∃ afterPoint, SpellsFraction (splitFraction chars).1 afterPoint ∧
      afterPoint ++ (splitFraction chars).2 = chars := by
  rw [splitFraction.eq_def]
  split
  · next rest =>
    rw [List.span_eq_takeWhile_dropWhile]
    refine ⟨_, .point (List.all_eq_true.mp List.all_takeWhile), ?_⟩
    rw [List.cons_append, List.takeWhile_append_dropWhile]
  · exact ⟨[], .nothing, rfl⟩

/-- An unsigned text and the decimal that it writes behind a sign. -/
inductive SpellsDecimal (negative : Bool) : Decimal → List Char → Prop
  | intro {whole fraction afterPoint afterMark : List Char} {exponent : ℤ}
      (digit : ∀ c ∈ whole, c.isDigit = true) (fractional : SpellsFraction fraction afterPoint)
      (scaled : SpellsExponent exponent afterMark) (some : whole ++ fraction ≠ []) :
    SpellsDecimal negative
      ⟨negative, ofDigits (whole ++ fraction), exponent - fraction.length⟩
      (whole ++ (afterPoint ++ afterMark))

section
variable {negative : Bool} {d : Decimal} {chars : List Char}

theorem readDecimal?_eq_some_iff :
    readDecimal? negative chars = some d ↔ SpellsDecimal negative d chars := by
  constructor
  · intro reads
    unfold readDecimal? at reads
    rw [List.span_eq_takeWhile_dropWhile] at reads
    simp only at reads
    obtain ⟨afterPoint, fractional, pointed⟩ :=
      exists_spellsFraction (chars.dropWhile Char.isDigit)
    split at reads
    · cases reads
    · next some =>
      obtain ⟨exponent, scaled, spelled⟩ := Option.bind_eq_some_iff.mp reads
      cases spelled
      have written : SpellsDecimal negative _ _ :=
        .intro (List.all_eq_true.mp List.all_takeWhile) fractional
          (readExponent?_eq_some_iff.mp scaled) (by simpa using some)
      rwa [pointed, List.takeWhile_append_dropWhile] at written
  · rintro ⟨digit, fractional, scaled, some⟩
    have ends := scaled.noDigit
    unfold readDecimal?
    rw [(fractional.noDigit ends).span digit]
    simp only [fractional.split ends]
    rw [if_neg (by simpa using some), readExponent?_eq_some_iff.mpr scaled]
    rfl

theorem SpellsDecimal.eq_cons (spelled : SpellsDecimal negative d chars) :
    ∃ c rest, chars = c :: rest ∧ (c.isDigit = true ∨ c = '.') := by
  obtain @⟨whole, _, _, _, _, digit, fractional, scaled, some⟩ := spelled
  cases whole with
  | cons c rest => exact ⟨c, _, rfl, .inl (digit c List.mem_cons_self)⟩
  | nil =>
    cases fractional with
    | nothing => exact absurd rfl some
    | point _ => exact ⟨'.', _, rfl, .inr rfl⟩

/-- A decimal is none of the words. -/
theorem SpellsDecimal.ne_word (spelled : SpellsDecimal negative d chars) :
    ∀ word ∈ ["inf", "infinity", "nan"], String.ofList (chars.map Char.toLower) ≠ word := by
  obtain ⟨c, rest, rfl, first⟩ := spelled.eq_cons
  have lower : c.toLower ≠ 'i' ∧ c.toLower ≠ 'n' := by
    rcases first with digit | rfl
    · rw [toLower_of_isDigit digit]
      constructor <;> rintro rfl <;> cases digit
    · decide
  have begins (word : String) (begin : Char) (front : word.toList.head? = some begin)
      (same : String.ofList ((c :: rest).map Char.toLower) = word) : c.toLower = begin := by
    rw [← same, String.toList_ofList] at front
    exact Option.some.inj front
  simp only [List.forall_mem_cons]
  exact ⟨fun same => lower.1 (begins "inf" 'i' rfl same),
    fun same => lower.1 (begins "infinity" 'i' rfl same),
    fun same => lower.2 (begins "nan" 'n' rfl same),
    fun word member => (List.not_mem_nil member).elim⟩

/-- A decimal is read behind any sign. -/
theorem read?_spelled {sign : List Char} (isSign : SpellsSign negative sign)
    (spelled : SpellsDecimal negative d chars) :
    read? (String.ofList (sign ++ chars)) = some (.decimal d) := by
  have unsigned : ∀ c ∈ chars.head?, c ≠ '+' ∧ c ≠ '-' := by
    obtain ⟨first, rest, rfl, starts⟩ := spelled.eq_cons
    intro c head
    obtain rfl := Option.some.inj head
    rcases starts with digit | rfl
    · exact ne_sign_of_isDigit digit
    · decide
  have words := spelled.ne_word
  simp only [List.forall_mem_cons] at words
  obtain ⟨inf, infinity, nan, -⟩ := words
  unfold read?
  rw [String.toList_ofList, isSign.split unsigned]
  simp only
  rw [if_neg (not_or.mpr ⟨inf, infinity⟩), if_neg nan, readDecimal?_eq_some_iff.mpr spelled]
  rfl

end

/-- Behind its sign, a text that denotes a number spells a decimal with this value. -/
theorem denotes_iff_spells {text : String} {v : ℚ} :
    Denotes text v ↔ ∃ negative sign chars d, SpellsSign negative sign ∧
      SpellsDecimal negative d chars ∧ text = String.ofList (sign ++ chars) ∧ d.value = v := by
  constructor
  · rintro ⟨isSign, digit, fractional, scaled, some⟩
    exact ⟨_, _, _, _, isSign, .intro digit fractional scaled some, rfl, value_eq ..⟩
  · rintro ⟨negative, sign, _, _, isSign, ⟨digit, fractional, scaled, some⟩, rfl, rfl⟩
    rw [value_eq]
    exact .intro isSign digit fractional scaled some

/-- The texts that denote numbers are those that are read as decimals, with these values. -/
theorem denotes_iff {text : String} {v : ℚ} :
    Denotes text v ↔ ∃ d, read? text = some (.decimal d) ∧ d.value = v := by
  rw [denotes_iff_spells]
  constructor
  · rintro ⟨negative, sign, chars, d, isSign, spelled, rfl, same⟩
    exact ⟨d, read?_spelled isSign spelled, same⟩
  · rintro ⟨d, reads, same⟩
    obtain ⟨sign, isSign, written⟩ := exists_spellsSign text.toList
    unfold read? at reads
    simp only at reads
    split at reads
    · cases reads
    · split at reads
      · cases reads
      · obtain ⟨_, spelled, found⟩ := Option.map_eq_some_iff.mp reads
        cases found
        refine ⟨_, sign, _, d, isSign, readDecimal?_eq_some_iff.mp spelled, ?_, same⟩
        rw [written, String.ofList_toList]

/-- What a text is read as is converted to the double at a place. -/
def Converts (text : String) (place : ℤ) : Prop :=
  ∃ literal, read? text = some literal ∧ literal.toBinary64.place = some place

/-- A text that denotes a number is converted to the double that the number is rounded to. -/
theorem Denotes.converts {text : String} {v : ℚ} (denotes : Denotes text v) :
    ∃ place, Converts text place ∧ NearestPlace v place := by
  obtain ⟨d, reads, rfl⟩ := denotes_iff.mp denotes
  obtain ⟨place, converted, nearest⟩ := d.nearestPlace_toBinary64
  exact ⟨place, ⟨.decimal d, reads, converted⟩, nearest⟩

end OperatorGen.Literal
