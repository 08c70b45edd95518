import Mathlib.Data.List.Chain
import OperatorGen.Proofs.Ident.Enumerator

/-!
# Separators of enumerators

An enumerator has the characters of its spelling in upper case, and underscores between them:
one in front of every digit and every capital, those that the spelling has itself, and none at
its ends (`constant_shape`). So all that an enumerator leaves open is case and underscores: two
identifiers that share one have the same characters otherwise.
-/
namespace OperatorGen.Ident

/-! ## Without underscores -/

/-- The characters of a text that are no underscores. -/
def withoutUnderscores (text : String) : List Char :=
  text.toList.filter (· != '_')

theorem filter_dropUnderscores (chars : List Char) :
    (dropUnderscores chars).filter (· != '_') = chars.filter (· != '_') := by
  induction chars with
  | nil => rfl
  | cons c rest ih =>
    by_cases underscore : c = '_'
    · subst underscore
      exact ih
    · rw [dropUnderscores_cons underscore]

/-- Nothing but underscores is trimmed. -/
theorem filter_trimUnderscores (chars : List Char) :
    (trimUnderscores chars).filter (· != '_') = chars.filter (· != '_') := by
  rw [trimUnderscores, List.filter_reverse, filter_dropUnderscores, List.filter_reverse,
    List.reverse_reverse, filter_dropUnderscores]

/-- Nothing but underscores is put between the characters of a spelling. -/
theorem filter_flatMap_constantPiece (chars : List Char) :
    (chars.flatMap constantPiece).filter (· != '_') =
      (chars.map upperChar).filter (· != '_') := by
  have piece : ∀ c, (constantPiece c).filter (· != '_') = [upperChar c].filter (· != '_') := by
    intro c
    unfold constantPiece
    split
    · exact List.filter_cons_of_neg (by decide)
    · rfl
  induction chars with
  | nil => rfl
  | cons c rest ih =>
    rw [List.flatMap_cons, List.filter_append, ih, piece, ← List.filter_append]
    rfl

/-- But for underscores, an enumerator is its spelling in upper case. -/
theorem withoutUnderscores_constant (ident : Ident) :
    withoutUnderscores ident.constant = withoutUnderscores ident.upper := by
  rw [withoutUnderscores, constant, String.toList_ofList, constantChars, filter_trimUnderscores,
    filter_flatMap_constantPiece, withoutUnderscores, upper, String.toList_ofList]

/-! ## Ends -/

/-- What is trimmed does not end with an underscore. -/
theorem getLast?_trimUnderscores (chars : List Char) :
    (trimUnderscores chars).getLast? ≠ some '_' := by
  rw [trimUnderscores_eq, dropLastUnderscores]
  by_cases empty : (dropUnderscores chars).rdropWhile (· == '_') = []
  · rw [empty]
    exact nofun
  · have last := List.rdropWhile_last_not (· == '_') _ empty
    rw [List.getLast?_eq_some_getLast empty]
    intro same
    rw [Option.some.inj same] at last
    exact last rfl

/-- What is trimmed does not begin with an underscore. -/
theorem head?_constantChars (chars : List Char) : (constantChars chars).head? ≠ some '_' := by
  cases begins : dropUnderscores chars with
  | nil =>
    rw [constantChars_eq_nil begins]
    exact nofun
  | cons first rest =>
    have other := upperChar_ne_underscore (ne_underscore_of_dropUnderscores begins)
    rw [constantChars_eq_cons begins, List.head?_cons]
    exact fun same => other (Option.some.inj same)

/-! ## Digits -/

/-- Every digit but the first character has an underscore in front of it. -/
def Separated (chars : List Char) : Prop :=
  chars.IsChain fun before c => c.isDigit = true → before = '_'

theorem Separated.infix {chars part : List Char} (separated : Separated chars)
    (inside : part <:+: chars) : Separated part :=
  List.IsChain.infix separated inside

/-- A digit opens a word of its own, and is its own upper case form. -/
theorem opensWord_of_isDigit {c : Char} (digit : (upperChar c).isDigit = true) :
    opensWord c = true := by
  have bounds : '0' ≤ upperChar c ∧ upperChar c ≤ '9' := by
    rw [Char.isDigit, Bool.and_eq_true, decide_eq_true_eq, decide_eq_true_eq] at digit
    exact digit
  have other : ¬ ('A' ≤ upperChar c ∧ upperChar c ≤ 'Z') := by
    intro capital
    exact absurd (Char.le_trans capital.1 bounds.2) (by decide)
  have same : c = upperChar c := eq_of_upperChar other rfl
  rw [← same] at bounds
  simp [opensWord, bounds]

/-- The pieces of a spelling have their digits separated, whatever stands in front of them. -/
theorem separated_flatMap (before : Char) (chars : List Char) :
    Separated (before :: chars.flatMap constantPiece) := by
  induction chars generalizing before with
  | nil => exact .singleton _
  | cons c rest ih =>
    rw [List.flatMap_cons, constantPiece]
    by_cases opens : opensWord c = true
    · rw [if_pos opens]
      -- The underscore of the piece stands in front of its character.
      refine .cons_cons (fun digit => ?_) (.cons_cons (fun _ => rfl) (ih _))
      exact absurd digit (by decide)
    · rw [if_neg opens]
      refine .cons_cons (fun digit => ?_) (ih _)
      exact absurd (opensWord_of_isDigit digit) opens

/-- What is trimmed is a part of what it is trimmed from. -/
theorem trimUnderscores_isInfix (chars : List Char) : trimUnderscores chars <:+: chars := by
  rw [trimUnderscores_eq]
  exact (List.rdropWhile_prefix _ _).isInfix.trans (List.dropWhile_suffix _).isInfix

theorem separated_constantChars (chars : List Char) : Separated (constantChars chars) := by
  have pieces : Separated (chars.flatMap constantPiece) := (separated_flatMap '_' chars).tail
  exact pieces.infix (trimUnderscores_isInfix _)

/-! ## Enumerators -/

/-- Two identifiers are spelled alike but for the case of ASCII letters and for underscores. -/
def SameLetters (a b : Ident) : Prop :=
  withoutUnderscores a.upper = withoutUnderscores b.upper

instance (a b : Ident) : Decidable (SameLetters a b) :=
  inferInstanceAs (Decidable (_ = _))

/-- The shape of an enumerator, and what identifiers have in common that share it. -/
theorem constant_shape (ident : Ident) :
    (∀ c ∈ ident.constant.toList, ¬ ('a' ≤ c ∧ c ≤ 'z')) ∧
      ident.constant.toList.head? ≠ some '_' ∧ ident.constant.toList.getLast? ≠ some '_' ∧
      Separated ident.constant.toList ∧
      withoutUnderscores ident.constant = withoutUnderscores ident.upper ∧
      ∀ other : Ident, other.constant = ident.constant → SameLetters other ident := by
  have letters := withoutUnderscores_constant
  refine ⟨fun c member => not_lower_of_mem_constant member, ?_, ?_, ?_, letters ident, ?_⟩
  · rw [constant, String.toList_ofList]
    exact head?_constantChars _
  · rw [constant, String.toList_ofList]
    exact getLast?_trimUnderscores _
  · rw [constant, String.toList_ofList]
    exact separated_constantChars _
  · intro other same
    rw [SameLetters, ← letters other, same, letters ident]

/-- Digits and capitals of `_srcPos12` are set off, and `src_pos12` shares its enumerator. -/
theorem srcPos_shape :
    (Ident.mk "_srcPos12").constant = "SRC_POS_1_2" ∧ Separated "SRC_POS_1_2".toList ∧
      (Ident.mk "src_pos12").constant = (Ident.mk "_srcPos12").constant ∧
      SameLetters ⟨"src_pos12"⟩ ⟨"_srcPos12"⟩ := by
  have enumerator : (Ident.mk "_srcPos12").constant = "SRC_POS_1_2" := by decide
  have shared : (Ident.mk "src_pos12").constant = (Ident.mk "_srcPos12").constant := by decide
  obtain ⟨-, -, -, separated, -, collides⟩ := constant_shape ⟨"_srcPos12"⟩
  exact ⟨enumerator, enumerator ▸ separated, shared, collides ⟨"src_pos12"⟩ shared⟩

end OperatorGen.Ident
