import OperatorGen.Proofs.Json.Lexing

/-!
# Written strings

A string that is written is read back as it was. A character is written as one piece
(`pieceOf`): a unit if it is a control without a letter of its own, and itself otherwise.
What is written is one of the spellings of these pieces.
-/
namespace OperatorGen.Json.Text

/-- The controls that have a letter of their own after a backslash. -/
def hasLetter (c : Char) : Bool :=
  c == '\x08' || c == '\x0c' || c == '\n' || c == '\r' || c == '\t'

/-- The piece that is scanned where a character is written. -/
def pieceOf (c : Char) : Piece :=
  if c.toNat < 0x20 ∧ hasLetter c = false then .unit c.toNat else .char c

/-! ## Spelling -/

theorem unitValue_hexDigit : ∀ n < 0x20,
    unitValue? '0' '0' (hexDigit (n / 16)) (hexDigit (n % 16)) = some n := by
  decide

/-- What is written for a character spells one piece. -/
theorem spells_quoteChar (c : Char) : (pieceOf c).Spells (quoteChar c) := by
  unfold quoteChar
  split
  case h_8 quote backslash backspace feed newline carriage tab =>
    have noLetter : hasLetter c = false := by
      simp only [hasLetter, Bool.or_eq_false_iff, beq_eq_false_iff_ne]
      exact ⟨⟨⟨⟨backspace, feed⟩, newline⟩, carriage⟩, tab⟩
    by_cases control : c.toNat < 0x20
    · rw [if_pos control, pieceOf, if_pos ⟨control, noLetter⟩]
      exact .digits (unitValue_hexDigit c.toNat control)
    · rw [if_neg control, pieceOf, if_neg fun both => control both.1]
      exact .plain (Nat.le_of_not_lt control) quote backslash
  all_goals exact .letter rfl

theorem spells_quoteChars (chars : List Char) :
    Spells (chars.map pieceOf) (chars.flatMap quoteChar) := by
  induction chars with
  | nil => exact .nil
  | cons c chars ih =>
    rw [List.map_cons, List.flatMap_cons]
    exact .cons (spells_quoteChar c) ih

/-! ## Decoding -/

/-- The piece of a character denotes it. -/
theorem decode_pieceOf (c : Char) (pieces : List Piece) :
    decode none (pieceOf c :: pieces) = (decode none pieces).map (c :: ·) := by
  unfold pieceOf
  split
  · next unit =>
    have notLow : isLow c.toNat = false := by
      simp only [isLow, Bool.and_eq_false_iff, decide_eq_false_iff_not]
      omega
    have notHigh : isHigh c.toNat = false := by
      simp only [isHigh, Bool.and_eq_false_iff, decide_eq_false_iff_not]
      omega
    rw [decode.eq_def]
    simp only [notLow, notHigh, Char.ofNat_toNat, Bool.false_eq_true, if_false]
    cases decode none pieces <;> rfl
  · rw [decode]
    cases decode none pieces <;> rfl

theorem decode_map_pieceOf (chars : List Char) :
    decode none (chars.map pieceOf) = .ok chars := by
  induction chars with
  | nil => rfl
  | cons c chars ih => rw [List.map_cons, decode_pieceOf, ih, Except.map]

end OperatorGen.Json.Text

namespace OperatorGen.Json.Token

/-- A string that is written spells its text. -/
theorem lexes_quote (value : String) : Lexes (Text.quote value).toList [.text (.ok value)] := by
  have spelling : (Text.quote value).toList = '"' :: (value.toList.flatMap Text.quoteChar ++ ['"']) :=
    String.toList_ofList
  have denoted : decoded none (value.toList.map Text.pieceOf) = .ok value := by
    rw [decoded, Text.decode_map_pieceOf, Except.map, String.ofList_toList]
  rw [spelling, ← denoted]
  exact lexes_text (Text.spells_quoteChars value.toList)

end OperatorGen.Json.Token
