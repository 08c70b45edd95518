import Mathlib.Data.List.DropRight
import OperatorGen.Proofs.Ident

/-!
# Enumerators character by character

The enumerator of a spelling begins with the upper case form of its first character that is
no underscore (`constantChars_eq_cons`); the characters behind that one are written as pieces,
and the underscores at the end are dropped. Without underscores in it, a spelling can be taken
apart into the pieces of its characters again (`constantPiece_append_inj`), so all that its
enumerator leaves open is the case of the first letter (`constantChars_inj`).
-/
namespace OperatorGen.Ident

/-! ## The first character -/

theorem upperChar_ne_underscore {c : Char} (other : c ≠ '_') : upperChar c ≠ '_' := by
  intro same
  exact other (eq_of_upperChar (by decide) same)

/-- A spelling without the underscores it ends with. -/
def dropLastUnderscores (chars : List Char) : List Char :=
  chars.rdropWhile (· == '_')

theorem trimUnderscores_eq (chars : List Char) :
    trimUnderscores chars = dropLastUnderscores (dropUnderscores chars) := rfl

theorem dropUnderscores_cons {c : Char} {chars : List Char} (other : c ≠ '_') :
    dropUnderscores (c :: chars) = c :: chars := by
  simp [dropUnderscores, other]

theorem dropLastUnderscores_cons {c : Char} {chars : List Char} (other : c ≠ '_') :
    dropLastUnderscores (c :: chars) = c :: dropLastUnderscores chars := by
  unfold dropLastUnderscores
  induction chars using List.reverseRecOn with
  | nil => simp [List.rdropWhile_singleton, other]
  | append_singleton front last ih =>
    rw [← List.cons_append, List.rdropWhile_concat, List.rdropWhile_concat]
    split
    · exact ih
    · rfl

/-- The underscores in front of a spelling are those in front of its pieces. -/
theorem dropUnderscores_flatMap (chars : List Char) :
    dropUnderscores (chars.flatMap constantPiece) =
      dropUnderscores ((dropUnderscores chars).flatMap constantPiece) := by
  induction chars with
  | nil => rfl
  | cons c rest ih =>
    by_cases underscore : c = '_'
    · subst underscore
      exact ih
    · rw [dropUnderscores_cons underscore]

theorem dropUnderscores_constantPiece {c : Char} (other : c ≠ '_') (chars : List Char) :
    dropUnderscores (constantPiece c ++ chars) = upperChar c :: chars := by
  have upper := upperChar_ne_underscore other
  unfold constantPiece
  split
  · exact dropUnderscores_cons upper
  · exact dropUnderscores_cons upper

/-- A spelling of underscores has an empty enumerator. -/
theorem constantChars_eq_nil {chars : List Char} (none : dropUnderscores chars = []) :
    constantChars chars = [] := by
  rw [constantChars, trimUnderscores_eq, dropUnderscores_flatMap, none]
  rfl

theorem ne_underscore_of_dropUnderscores {chars rest : List Char} {first : Char}
    (begins : dropUnderscores chars = first :: rest) : first ≠ '_' := by
  have head := List.head?_dropWhile_not (· == '_') chars
  rw [← dropUnderscores, begins] at head
  simpa using head

/-- An enumerator begins with the first character of the spelling that is no underscore. -/
theorem constantChars_eq_cons {chars rest : List Char} {first : Char}
    (begins : dropUnderscores chars = first :: rest) :
    constantChars chars = upperChar first :: dropLastUnderscores (rest.flatMap constantPiece) := by
  have other : first ≠ '_' := ne_underscore_of_dropUnderscores begins
  rw [constantChars, trimUnderscores_eq, dropUnderscores_flatMap, begins, List.flatMap_cons,
    dropUnderscores_constantPiece other, dropLastUnderscores_cons (upperChar_ne_underscore other)]

/-! ## Pieces -/

/-- Characters that both open a word, or neither of them, have one upper case form only if they
    are the same. -/
theorem eq_of_upperChar_eq {c d : Char} (opens : opensWord c = opensWord d)
    (same : upperChar c = upperChar d) : c = d := by
  have lowers : ∀ first ≤ 122, 97 ≤ first → ∀ second ≤ 122, 97 ≤ second →
      Char.ofNat (first - 32) = Char.ofNat (second - 32) → first = second := by decide
  by_cases lower : 'a' ≤ c ∧ c ≤ 'z'
  · by_cases lower' : 'a' ≤ d ∧ d ≤ 'z'
    · rw [upperChar, if_pos lower, upperChar, if_pos lower'] at same
      have codes := lowers c.toNat lower.2 lower.1 d.toNat lower'.2 lower'.1 same
      rw [← Char.ofNat_toNat c, codes, Char.ofNat_toNat]
    · -- Only the one that is no lower case letter opens a word.
      obtain ⟨plain, capital, -⟩ := upperChar_of_lower lower
      rw [same, upperChar, if_neg lower', ← opens, plain] at capital
      cases capital
  · by_cases lower' : 'a' ≤ d ∧ d ≤ 'z'
    · obtain ⟨plain, capital, -⟩ := upperChar_of_lower lower'
      rw [← same, upperChar, if_neg lower, opens, plain] at capital
      cases capital
    · rwa [upperChar, if_neg lower, upperChar, if_neg lower'] at same

/-- In front of any texts, the pieces of two characters that are no underscores are told
    apart. -/
theorem constantPiece_append_inj {c d : Char} {chars others : List Char} (notC : c ≠ '_')
    (notD : d ≠ '_') (same : constantPiece c ++ chars = constantPiece d ++ others) :
    c = d ∧ chars = others := by
  unfold constantPiece at same
  split at same
  · next opensC =>
    split at same
    · next opensD =>
      obtain ⟨upper, tails⟩ := List.cons.inj (List.cons.inj same).2
      exact ⟨eq_of_upperChar_eq (opensC.trans opensD.symm) upper, tails⟩
    · exact absurd (List.cons.inj same).1.symm (upperChar_ne_underscore notD)
  · next plainC =>
    split at same
    · exact absurd (List.cons.inj same).1 (upperChar_ne_underscore notC)
    · next plainD =>
      obtain ⟨upper, tails⟩ := List.cons.inj same
      have opens : opensWord c = opensWord d :=
        (Bool.eq_false_iff.mpr plainC).trans (Bool.eq_false_iff.mpr plainD).symm
      exact ⟨eq_of_upperChar_eq opens upper, tails⟩

/-- Spellings without underscores are told apart by the pieces of their characters. -/
theorem flatMap_constantPiece_inj {chars others : List Char} (plain : '_' ∉ chars)
    (plain' : '_' ∉ others)
    (same : chars.flatMap constantPiece = others.flatMap constantPiece) : chars = others := by
  have some : ∀ c : Char, constantPiece c ≠ [] := by
    intro c
    unfold constantPiece
    split <;> exact List.cons_ne_nil _ _
  induction chars generalizing others with
  | nil =>
    cases others with
    | nil => rfl
    | cons d rest =>
      have empty := (List.append_eq_nil_iff.mp (List.flatMap_cons ▸ same.symm)).1
      exact absurd empty (some d)
  | cons c rest ih =>
    cases others with
    | nil =>
      have empty := (List.append_eq_nil_iff.mp (List.flatMap_cons ▸ same)).1
      exact absurd empty (some c)
    | cons d rest' =>
      rw [List.mem_cons, not_or] at plain plain'
      rw [List.flatMap_cons, List.flatMap_cons] at same
      obtain ⟨rfl, tails⟩ := constantPiece_append_inj (Ne.symm plain.1) (Ne.symm plain'.1) same
      rw [ih plain.2 plain'.2 tails]

/-- Pieces of characters that are no underscores end with none. -/
theorem dropLastUnderscores_flatMap {chars : List Char} (plain : '_' ∉ chars) :
    dropLastUnderscores (chars.flatMap constantPiece) = chars.flatMap constantPiece := by
  rcases List.eq_nil_or_concat chars with rfl | ⟨front, last, rfl⟩
  · rfl
  · have other : upperChar last ≠ '_' := by
      refine upperChar_ne_underscore fun underscore => plain ?_
      simp [underscore]
    have piece : ∃ before, constantPiece last = before ++ [upperChar last] := by
      unfold constantPiece
      split
      · exact ⟨['_'], rfl⟩
      · exact ⟨[], rfl⟩
    obtain ⟨before, ends⟩ := piece
    rw [List.concat_eq_append, List.flatMap_append, List.flatMap_singleton, ends,
      ← List.append_assoc]
    exact List.rdropWhile_concat_neg _ _ _ (by simp [other])

/-! ## Spellings without underscores -/

theorem constantChars_cons {c : Char} {chars : List Char} (plain : '_' ∉ c :: chars) :
    constantChars (c :: chars) = upperChar c :: chars.flatMap constantPiece := by
  rw [List.mem_cons, not_or] at plain
  rw [constantChars_eq_cons (dropUnderscores_cons (Ne.symm plain.1)),
    dropLastUnderscores_flatMap plain.2]

/-- Spellings without underscores have one enumerator exactly if they have one class form. -/
theorem constantChars_inj {chars others : List Char} (plain : '_' ∉ chars)
    (plain' : '_' ∉ others) :
    constantChars chars = constantChars others ↔ classChars chars = classChars others := by
  constructor
  · intro same
    cases chars with
    | nil =>
      cases others with
      | nil => rfl
      | cons d rest =>
        rw [constantChars_cons plain'] at same
        cases same
    | cons c rest =>
      cases others with
      | nil =>
        rw [constantChars_cons plain] at same
        cases same
      | cons d rest' =>
        rw [constantChars_cons plain, constantChars_cons plain', List.cons.injEq] at same
        rw [List.mem_cons, not_or] at plain plain'
        rw [classChars, classChars, same.1, flatMap_constantPiece_inj plain.2 plain'.2 same.2]
  · intro same
    rw [← constantChars_classChars chars, same, constantChars_classChars]

end OperatorGen.Ident
