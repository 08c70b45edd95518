import OperatorGen.Ident

/-!
# Derived spellings

How the spellings that are derived from one identifier belong together. The class form
changes the first letter only, and the enumerator form sets a letter off from the ones
before it, of which the first has none; so the two forms of a first letter have one
enumerator, and identifiers of one class have one enumerator as well. A character that no
identifier has is neither in a valid spelling nor in its class form.
-/
namespace OperatorGen.Ident

/-- What holds of all ASCII lower case letters can be checked on their codes. -/
@[elab_as_elim]
theorem of_lower {P : Char → Prop} {c : Char} (lower : 'a' ≤ c ∧ c ≤ 'z')
    (letters : ∀ code ≤ 122, 97 ≤ code → P (Char.ofNat code)) : P c := by
  have letter := letters c.toNat lower.2 lower.1
  rwa [Char.ofNat_toNat] at letter

theorem upperChar_of_lower {c : Char} (lower : 'a' ≤ c ∧ c ≤ 'z') :
    opensWord c = false ∧ opensWord (upperChar c) = true ∧
      upperChar (upperChar c) = upperChar c :=
  of_lower lower (by decide)

/-- In front of a text, both forms of a letter are the same but for an underscore. -/
theorem dropUnderscores_constantPiece_upperChar (c : Char) (chars : List Char) :
    dropUnderscores (constantPiece (upperChar c) ++ chars) =
      dropUnderscores (constantPiece c ++ chars) := by
  by_cases lower : 'a' ≤ c ∧ c ≤ 'z'
  · obtain ⟨plain, opens, upper⟩ := upperChar_of_lower lower
    simp [constantPiece, plain, opens, upper, dropUnderscores]
  · have same : upperChar c = c := if_neg lower
    rw [same]

theorem constantChars_classChars (chars : List Char) :
    constantChars (classChars chars) = constantChars chars := by
  cases chars with
  | nil => rfl
  | cons first rest =>
    have front := dropUnderscores_constantPiece_upperChar first (rest.flatMap constantPiece)
    simp only [constantChars, trimUnderscores, classChars, List.flatMap_cons, front]

/-- Identifiers of one class have one enumerator. -/
theorem constant_eq_of_className_eq {a b : Ident} (same : a.className = b.className) :
    a.constant = b.constant := by
  have chars : classChars a.text.toList = classChars b.text.toList :=
    String.ofList_injective same
  rw [constant, constant, ← constantChars_classChars a.text.toList, chars,
    constantChars_classChars]

/-- The characters of an enumerator are those of the spelling in upper case, and underscores. -/
theorem mem_constant {ident : Ident} {c : Char} (member : c ∈ ident.constant.toList) :
    c = '_' ∨ ∃ d ∈ ident.text.toList, c = upperChar d := by
  have dropped : ∀ {chars : List Char}, c ∈ dropUnderscores chars → c ∈ chars := fun inside =>
    (List.dropWhile_sublist _).subset inside
  have piece : c ∈ ident.text.toList.flatMap constantPiece := by
    rw [constant, String.toList_ofList, constantChars, trimUnderscores, List.mem_reverse] at member
    exact dropped (List.mem_reverse.mp (dropped member))
  obtain ⟨d, inText, inPiece⟩ := List.mem_flatMap.mp piece
  unfold constantPiece at inPiece
  split at inPiece
  · simp only [List.mem_cons, List.not_mem_nil, or_false] at inPiece
    exact inPiece.imp_right fun same => ⟨d, inText, same⟩
  · exact .inr ⟨d, inText, List.mem_singleton.mp inPiece⟩

/-- The upper case form of a character is no lower case letter. -/
theorem not_lower_upperChar (c : Char) : ¬ ('a' ≤ upperChar c ∧ upperChar c ≤ 'z') := by
  intro lower
  by_cases small : 'a' ≤ c ∧ c ≤ 'z'
  · have opens := (upperChar_of_lower small).2.1
    have upper := (upperChar_of_lower lower).1
    rw [opens] at upper
    cases upper
  · rw [upperChar, if_neg small] at lower
    exact small lower

/-- No character of an enumerator is an ASCII lower case letter. -/
theorem not_lower_of_mem_constant {ident : Ident} {c : Char}
    (member : c ∈ ident.constant.toList) : ¬ ('a' ≤ c ∧ c ≤ 'z') := by
  rcases mem_constant member with rfl | ⟨d, -, rfl⟩
  · decide
  · exact not_lower_upperChar d

/-! ## Foreign characters -/

/-- A character that is no letter is the upper case form of itself only. -/
theorem eq_of_upperChar {c d : Char} (other : ¬ ('A' ≤ d ∧ d ≤ 'Z')) (same : upperChar c = d) :
    c = d := by
  unfold upperChar at same
  split at same
  · next lower =>
    have capital : 'A' ≤ Char.ofNat (c.toNat - 32) ∧ Char.ofNat (c.toNat - 32) ≤ 'Z' :=
      of_lower lower (by decide)
    exact absurd (same ▸ capital) other
  · exact same

/-- The class form brings no character that is no letter. -/
theorem not_mem_className {ident : Ident} {d : Char} (none : d ∉ ident.text.toList)
    (other : ¬ ('A' ≤ d ∧ d ≤ 'Z')) : d ∉ ident.className.toList := by
  rw [className, String.toList_ofList]
  cases chars : ident.text.toList with
  | nil => exact List.not_mem_nil
  | cons first rest =>
    rw [chars, List.mem_cons, not_or] at none
    rw [classChars, List.mem_cons, not_or]
    exact ⟨fun same => none.1 (eq_of_upperChar other same.symm).symm, none.2⟩

/-- A character that no identifier has is in no valid one. -/
theorem not_mem_of_isValid {ident : Ident} (valid : ident.isValid = true) {c : Char}
    (foreign : (c == '_' || Unicode.isIdentifierStart c || Unicode.isIdentifierContinue c) = false) :
    c ∉ ident.text.toList := by
  rw [isValid] at valid
  intro member
  cases chars : ident.text.toList with
  | nil =>
    rw [chars] at member
    cases member
  | cons first rest =>
    rw [chars] at valid member
    simp only [validChars, Bool.and_eq_true, List.all_eq_true] at valid
    simp only [Bool.or_eq_false_iff] at foreign
    rcases List.mem_cons.mp member with rfl | later
    · simp [foreign] at valid
    · simp [valid.2 c later] at foreign

end OperatorGen.Ident
