import Mathlib.Data.List.Basic
import OperatorGen.Emission.Setup

/-!
# Literals

Titles and display names are put between quotes, and some of their characters are escaped, one
kind of them after the other (`escape_escape`). A literal is read back by undoing its escapes
(`readLiteral?`): a backslash takes along the backslash or quote behind it, and the first quote
without one ends the literal. A text is read from that literal only in which its quotes and
backslashes are escaped (`readLiteral?_eq_some_iff`). This is what a title becomes
(`readLiteral?_titleLiteral`). In a display name only the quotes are escaped, so that it is
read back exactly if it has no backslash (`readLiteral?_nameLiteral_iff`).
-/
namespace OperatorGen.Setup

/-! ## Escapes -/

/-- A character of a title in its literal. -/
def titleChar (c : Char) : List Char :=
  if c = '\\' then ['\\', '\\'] else if c = '"' then ['\\', '"'] else [c]

/-- A character of a display name in its literal. -/
def nameChar (c : Char) : List Char :=
  if c = '"' then ['\\', '"'] else [c]

theorem escape_quote (text : List Char) : escape '"' text = text.flatMap nameChar := by
  refine List.flatMap_congr fun c _ => ?_
  by_cases quote : c = '"'
  · subst quote
    rfl
  · simp [nameChar, quote]

/-- The pass on quotes leaves the escapes of backslashes as they are, so that both passes are
    one on the characters. -/
theorem escape_escape (text : List Char) :
    escape '"' (escape '\\' text) = text.flatMap titleChar := by
  rw [escape_quote, escape, List.flatMap_assoc]
  refine List.flatMap_congr fun c _ => ?_
  by_cases backslash : c = '\\'
  · subst backslash
    rfl
  · simp [titleChar, nameChar, backslash]

theorem titleLiteral_eq (argument : Argument) : titleLiteral argument =
    String.ofList ('"' :: (argument.title.toList.flatMap titleChar ++ ['"'])) := by
  rw [titleLiteral, escape_escape]

theorem nameLiteral_eq (description : EnumDescription) : nameLiteral description =
    String.ofList ('"' :: (description.title.toList.flatMap nameChar ++ ['"'])) := by
  rw [nameLiteral, escape_quote]

/-! ## Reading -/

/-- Reads a literal behind its opening quote. The escapes are those of a backslash and of a
    quote, and nothing may follow the closing quote. -/
def readLiteralRest? : List Char → Option (List Char)
  | [] => none
  | ['"'] => some []
  | '"' :: _ => none
  | '\\' :: '\\' :: rest => (readLiteralRest? rest).map ('\\' :: ·)
  | '\\' :: '"' :: rest => (readLiteralRest? rest).map ('"' :: ·)
  | '\\' :: _ => none
  | c :: rest => (readLiteralRest? rest).map (c :: ·)

/-- The text that a literal stands for. -/
def readLiteral? : List Char → Option (List Char)
  | '"' :: rest => readLiteralRest? rest
  | _ => none

theorem readLiteralRest?_plain {c : Char} (notQuote : c ≠ '"') (notBackslash : c ≠ '\\')
    (rest : List Char) : readLiteralRest? (c :: rest) = (readLiteralRest? rest).map (c :: ·) := by
  rw [readLiteralRest?]
  all_goals simp [notQuote, notBackslash]

theorem readLiteralRest?_titleChar (c : Char) (rest : List Char) :
    readLiteralRest? (titleChar c ++ rest) = (readLiteralRest? rest).map (c :: ·) := by
  by_cases backslash : c = '\\'
  · subst backslash
    rfl
  · by_cases quote : c = '"'
    · subst quote
      rfl
    · rw [titleChar, if_neg backslash, if_neg quote]
      exact readLiteralRest?_plain quote backslash rest

/-- A text is read from one literal only: the one in which its quotes and backslashes are
    escaped. -/
theorem readLiteralRest?_eq_some_iff {chars text : List Char} :
    readLiteralRest? chars = some text ↔ chars = text.flatMap titleChar ++ ['"'] := by
  constructor
  · intro reads
    fun_induction readLiteralRest? chars generalizing text with
    | case1 => cases reads
    | case2 =>
      cases reads
      rfl
    | case3 => cases reads
    | case4 rest ih =>
      obtain ⟨behind, readsRest, rfl⟩ := Option.map_eq_some_iff.mp reads
      rw [ih readsRest]
      rfl
    | case5 rest ih =>
      obtain ⟨behind, readsRest, rfl⟩ := Option.map_eq_some_iff.mp reads
      rw [ih readsRest]
      rfl
    | case6 => cases reads
    | case7 c rest _ quote _ _ backslash ih =>
      obtain ⟨behind, readsRest, rfl⟩ := Option.map_eq_some_iff.mp reads
      rw [ih readsRest, List.flatMap_cons, titleChar, if_neg backslash, if_neg quote]
      rfl
  · rintro rfl
    induction text with
    | nil => rfl
    | cons c rest ih =>
      rw [List.flatMap_cons, List.append_assoc, readLiteralRest?_titleChar, ih]
      rfl

/-- The literal of a text, in which its quotes and backslashes are escaped. -/
theorem readLiteral?_eq_some_iff {chars text : List Char} :
    readLiteral? chars = some text ↔ chars = '"' :: (text.flatMap titleChar ++ ['"']) := by
  constructor
  · intro reads
    unfold readLiteral? at reads
    split at reads
    · rw [readLiteralRest?_eq_some_iff.mp reads]
    · cases reads
  · rintro rfl
    exact readLiteralRest?_eq_some_iff.mpr rfl

/-! ## Titles and names -/

/-- A title is read back from its literal, whatever characters it has. -/
theorem readLiteral?_titleLiteral (argument : Argument) :
    readLiteral? (titleLiteral argument).toList = some argument.title.toList := by
  rw [titleLiteral_eq, String.toList_ofList]
  exact readLiteral?_eq_some_iff.mpr rfl

theorem nameChar_eq_titleChar {c : Char} (plain : c ≠ '\\') : nameChar c = titleChar c := by
  rw [titleChar, if_neg plain, nameChar]

theorem length_nameChars_le (text : List Char) :
    (text.flatMap nameChar).length ≤ (text.flatMap titleChar).length := by
  induction text with
  | nil => exact Nat.le_refl _
  | cons c rest ih =>
    have piece : (nameChar c).length ≤ (titleChar c).length := by
      by_cases backslash : c = '\\'
      · subst backslash
        decide
      · exact Nat.le_of_eq (congrArg List.length (nameChar_eq_titleChar backslash))
    rw [List.flatMap_cons, List.flatMap_cons, List.length_append, List.length_append]
    exact Nat.add_le_add piece ih

/-- Both ways of escaping agree exactly on the texts without a backslash. -/
theorem nameChars_eq_titleChars_iff {text : List Char} :
    text.flatMap nameChar = text.flatMap titleChar ↔ '\\' ∉ text := by
  induction text with
  | nil => simp
  | cons c rest ih =>
    rw [List.flatMap_cons, List.flatMap_cons, List.mem_cons, not_or]
    by_cases backslash : c = '\\'
    · subst backslash
      refine iff_of_false ?_ fun plain => plain.1 rfl
      -- The title takes two characters for the backslash, and the name one.
      intro same
      have sizes : (rest.flatMap nameChar).length + 1 = (rest.flatMap titleChar).length + 2 :=
        congrArg List.length same
      have bounded := length_nameChars_le rest
      omega
    · rw [nameChar_eq_titleChar backslash, List.append_cancel_left_eq, ih]
      simp [Ne.symm backslash]

/-- The display name of a description is read back from its literal exactly if it has no
    backslash. -/
theorem readLiteral?_nameLiteral_iff (description : EnumDescription) :
    readLiteral? (nameLiteral description).toList = some description.title.toList ↔
      '\\' ∉ description.title.toList := by
  rw [nameLiteral_eq, String.toList_ofList, readLiteral?_eq_some_iff, List.cons.injEq,
    List.append_cancel_right_eq, nameChars_eq_titleChars_iff]
  exact and_iff_right rfl

end OperatorGen.Setup
