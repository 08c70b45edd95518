import OperatorGen.Proofs.Ident.Enumerator

/-!
# Valid spellings and what is derived from them

The spellings that are derived from a valid one are names in the code as well. The class form
changes the case of a letter, and the member form puts a letter in front, so both are valid
again. The enumerator drops the underscores in front, and then it begins with what stood behind
them: it is valid exactly if that is a character that may begin an identifier
(`derived_spellings_valid`). A spelling such as `_1` is valid, but its enumerator is not.
-/
namespace OperatorGen

namespace Unicode

theorem isIdentifierContinue_underscore : isIdentifierContinue '_' = true := by
  decide +kernel

theorem isIdentifierStart_of_lower {c : Char} (lower : 'a' ≤ c ∧ c ≤ 'z') :
    isIdentifierStart c = true ∧ isIdentifierStart (Ident.upperChar c) = true :=
  Ident.of_lower lower (by decide +kernel)

/-- Both forms of a letter may begin an identifier, and neither form of anything else may if the
    other may not. -/
theorem isIdentifierStart_upperChar (c : Char) :
    isIdentifierStart (Ident.upperChar c) = isIdentifierStart c := by
  by_cases lower : 'a' ≤ c ∧ c ≤ 'z'
  · obtain ⟨start, upper⟩ := isIdentifierStart_of_lower lower
    rw [start, upper]
  · rw [Ident.upperChar, if_neg lower]

theorem isIdentifierContinue_upperChar {c : Char} (continues : isIdentifierContinue c = true) :
    isIdentifierContinue (Ident.upperChar c) = true := by
  by_cases lower : 'a' ≤ c ∧ c ≤ 'z'
  · exact isIdentifierContinue_of_start (isIdentifierStart_of_lower lower).2
  · rwa [Ident.upperChar, if_neg lower]

end Unicode

namespace Ident

open Unicode

/-- Whether a spelling, behind the underscores that it begins with, goes on with a character that
    may begin an identifier. -/
def beginsWithLetter (ident : Ident) : Bool :=
  (dropUnderscores ident.text.toList).head?.any isIdentifierStart

theorem validChars_cons {first : Char} {rest : List Char} :
    validChars (first :: rest) = true ↔
      (first = '_' ∨ isIdentifierStart first = true) ∧
        ∀ c ∈ rest, isIdentifierContinue c = true := by
  simp [validChars]

/-- All characters of a valid spelling may continue an identifier, the first one too. -/
theorem continues_of_validChars {chars : List Char} (valid : validChars chars = true) :
    ∀ c ∈ chars, isIdentifierContinue c = true := by
  cases chars with
  | nil => cases valid
  | cons first rest =>
    obtain ⟨begins, continues⟩ := validChars_cons.mp valid
    refine List.forall_mem_cons.mpr ⟨?_, continues⟩
    rcases begins with rfl | start
    · exact isIdentifierContinue_underscore
    · exact isIdentifierContinue_of_start start

variable {ident : Ident}

theorem isValid_className (valid : ident.isValid = true) :
    (Ident.mk ident.className).isValid = true := by
  rw [isValid] at valid
  rw [isValid, className, String.toList_ofList]
  cases chars : ident.text.toList with
  | nil =>
    rw [chars] at valid
    cases valid
  | cons first rest =>
    rw [chars] at valid
    obtain ⟨begins, continues⟩ := validChars_cons.mp valid
    refine validChars_cons.mpr ⟨?_, continues⟩
    rw [isIdentifierStart_upperChar]
    exact begins.imp_left fun underscore => by rw [underscore]; rfl

theorem isValid_member (valid : ident.isValid = true) : (Ident.mk ident.member).isValid = true := by
  have letter : isIdentifierStart 'm' = true := by decide +kernel
  have chars : ident.member.toList = 'm' :: '_' :: ident.text.toList := by
    rw [member, String.toList_append]
    rfl
  rw [isValid, chars]
  refine validChars_cons.mpr ⟨.inr letter, List.forall_mem_cons.mpr ⟨?_, ?_⟩⟩
  · exact isIdentifierContinue_underscore
  · exact continues_of_validChars valid

/-- All characters of the enumerator of a valid spelling may continue an identifier. -/
theorem continues_of_mem_constant (valid : ident.isValid = true) :
    ∀ c ∈ ident.constant.toList, isIdentifierContinue c = true := by
  intro c member
  rcases mem_constant member with rfl | ⟨d, inText, rfl⟩
  · exact isIdentifierContinue_underscore
  · exact isIdentifierContinue_upperChar (continues_of_validChars valid d inText)

theorem isValid_constant_iff (valid : ident.isValid = true) :
    (Ident.mk ident.constant).isValid = true ↔ ident.beginsWithLetter = true := by
  have continues := continues_of_mem_constant valid
  rw [constant, String.toList_ofList] at continues
  rw [isValid, constant, String.toList_ofList, beginsWithLetter]
  cases begins : dropUnderscores ident.text.toList with
  | nil =>
    rw [constantChars_eq_nil begins]
    simp [validChars]
  | cons first rest =>
    have other := upperChar_ne_underscore (ne_underscore_of_dropUnderscores begins)
    rw [constantChars_eq_cons begins, List.forall_mem_cons] at continues
    rw [constantChars_eq_cons begins, validChars_cons, and_iff_left continues.2,
      or_iff_right other, isIdentifierStart_upperChar]
    rfl

/-- The class form and the member form of a valid spelling are valid, and its enumerator is
    valid exactly if the spelling begins with a letter behind its underscores. -/
theorem derived_spellings_valid (valid : ident.isValid = true) :
    (Ident.mk ident.className).isValid = true ∧ (Ident.mk ident.member).isValid = true ∧
      ((Ident.mk ident.constant).isValid = true ↔ ident.beginsWithLetter = true) :=
  ⟨isValid_className valid, isValid_member valid, isValid_constant_iff valid⟩

/-- All names derived from `_maß1` are valid. -/
theorem underscored_spelling_valid :
    (Ident.mk "_maß1").isValid = true ∧ (Ident.mk "_maß1").className = "_maß1" ∧
      (Ident.mk "_maß1").constant = "MAß_1" ∧ (Ident.mk "MAß_1").isValid = true ∧
      (Ident.mk "m__maß1").isValid = true := by
  have valid : (Ident.mk "_maß1").isValid = true := by decide +kernel
  have letter : (Ident.mk "_maß1").beginsWithLetter = true := by decide +kernel
  obtain ⟨-, member, constant⟩ := derived_spellings_valid valid
  exact ⟨valid, by decide, by decide, constant.mpr letter, member⟩

/-- A derived spelling need not be valid: the enumerator of `_1` is a digit. -/
theorem enumerator_of_digit_invalid :
    ¬ ∀ ident : Ident, ident.isValid = true →
      (Ident.mk ident.className).isValid = true ∧ (Ident.mk ident.constant).isValid = true ∧
        (Ident.mk ident.member).isValid = true := by
  intro derived
  have valid : (Ident.mk "_1").isValid = true := by decide +kernel
  have digit : (Ident.mk "_1").constant = "1" := by decide
  obtain ⟨-, constant, -⟩ := derived ⟨"_1"⟩ valid
  rw [digit] at constant
  exact absurd constant (by decide +kernel)

end Ident
end OperatorGen
