import OperatorGen.Proofs.Json.Lexemes

/-!
# Characters that spell tokens

Characters spell tokens if they are split into these tokens, whatever follows that no number
goes on with (`Token.Lexes`). Tokens that are spelled one after another are spelled together,
and blanks may stand in front of them and behind them.
-/
namespace OperatorGen.Json.Token

open Numeral (Ends)

/-- Characters spell tokens, whatever follows them that no number goes on with. -/
structure Lexes (chars : List Char) (tokens : List Token) : Prop where
  short : tokens.length ≤ chars.length
  split : ∀ fuel rest, Ends rest →
    lexWith (tokens.length + fuel) (chars ++ rest) = tokens ++ lexWith fuel rest

/-- Nothing but blanks. -/
def Blank (chars : List Char) : Prop :=
  ∀ c ∈ chars, isBlank c = true

instance : DecidablePred Blank := fun chars =>
  decidable_of_iff (chars.all isBlank = true) List.all_eq_true

theorem ends_append {chars rest : List Char} (ends : Ends chars) (after : Ends rest) :
    Ends (chars ++ rest) := by
  cases chars with
  | nil => exact after
  | cons c chars => exact ends

/-- No number goes on with a comma, a colon or a closing bracket. -/
theorem ends_separator {c : Char} (separates : c = ',' ∨ c = ':' ∨ c = ']' ∨ c = '\x7d')
    (rest : List Char) : Ends (c :: rest) := by
  intro first head
  obtain rfl := Option.some.inj head
  rcases separates with rfl | rfl | rfl | rfl <;> decide

theorem ends_blank {chars : List Char} (blank : Blank chars) : Ends chars := by
  intro c first
  have blank := blank c (List.mem_of_mem_head? first)
  simp only [isBlank, Bool.or_eq_true, beq_iff_eq] at blank
  rcases blank with ((rfl | rfl) | rfl) | rfl <;> decide

theorem lexWith_cons {c : Char} {chars rest : List Char} {token : Token} {fuel : Nat}
    (visible : isBlank c = false) (begins : lexeme c chars = (token, rest)) :
    lexWith (fuel + 1) (c :: chars) = token :: lexWith fuel rest := by
  rw [lexWith, List.dropWhile_cons_of_neg (by simp [visible])]
  simp only [begins]

/-- Blanks in front of a text make no tokens. -/
theorem lexWith_blank {blanks : List Char} (blank : Blank blanks) (fuel : Nat)
    (rest : List Char) : lexWith fuel (blanks ++ rest) = lexWith fuel rest := by
  cases fuel with
  | zero => rfl
  | succ fuel => rw [lexWith, List.dropWhile_append_of_pos blank, lexWith]

namespace Lexes

theorem nil : Lexes [] [] :=
  ⟨Nat.le_refl _, fun fuel rest _ => by simp⟩

/-- A token of one character, in front of others. -/
theorem cons {c : Char} {chars : List Char} {token : Token} {tokens : List Token}
    (visible : isBlank c = false) (begins : ∀ rest, lexeme c rest = (token, rest))
    (others : Lexes chars tokens) : Lexes (c :: chars) (token :: tokens) where
  short := Nat.succ_le_succ others.short
  split fuel rest ends := by
    have more : (token :: tokens).length + fuel = tokens.length + fuel + 1 := by
      rw [List.length_cons]; omega
    rw [more, List.cons_append, lexWith_cons visible (begins _), others.split fuel rest ends,
      List.cons_append]

theorem closeList : Lexes [']'] [.closeList] :=
  nil.cons rfl fun _ => rfl

theorem closeObject : Lexes ['\x7d'] [.closeObject] :=
  nil.cons rfl fun _ => rfl

/-- A single token of some characters. -/
theorem single {c : Char} {chars : List Char} {token : Token} (visible : isBlank c = false)
    (begins : ∀ rest, Ends rest → lexeme c (chars ++ rest) = (token, rest)) :
    Lexes (c :: chars) [token] where
  short := Nat.succ_le_succ (Nat.zero_le _)
  split fuel rest ends := by
    rw [List.length_singleton, Nat.add_comm, List.cons_append,
      lexWith_cons visible (begins rest ends)]
    rfl

/-- Characters that spell tokens, in front of others that a number does not go on with. -/
theorem append {first second : List Char} {before after : List Token}
    (spelled : Lexes first before) (ends : Ends second) (others : Lexes second after) :
    Lexes (first ++ second) (before ++ after) where
  short := by
    have := spelled.short
    have := others.short
    simp only [List.length_append]
    omega
  split fuel rest finish := by
    rw [List.length_append, List.append_assoc, Nat.add_assoc,
      spelled.split _ _ (ends_append ends finish), others.split fuel rest finish,
      List.append_assoc]

/-- Blanks in front of tokens and behind them make no difference. -/
theorem padded {before after chars : List Char} {tokens : List Token}
    (spelled : Lexes chars tokens) (inFront : Blank before) (behind : Blank after) :
    Lexes (before ++ (chars ++ after)) tokens where
  short := by
    have := spelled.short
    simp only [List.length_append]
    omega
  split fuel rest ends := by
    rw [List.append_assoc, lexWith_blank inFront, List.append_assoc,
      spelled.split _ _ (ends_append (ends_blank behind) ends), lexWith_blank behind]

/-- Several spellings with commas between them. -/
theorem intercalate {ι : Type} {items : List ι} {chars : ι → List Char} {tokens : ι → List Token}
    (each : ∀ item ∈ items, Lexes (chars item) (tokens item)) :
    Lexes ([','].intercalate (items.map chars)) ([.comma].intercalate (items.map tokens)) := by
  induction items with
  | nil => exact .nil
  | cons item rest ih =>
    obtain ⟨first, others⟩ := List.forall_mem_cons.mp each
    cases rest with
    | nil => simpa using first
    | cons second rest =>
      simp only [List.map_cons, List.intercalate_cons_cons, List.append_assoc,
        List.singleton_append]
      exact first.append (ends_separator (.inl rfl) _) ((ih others).cons rfl fun _ => rfl)

/-- Characters that spell tokens are split into these tokens. -/
theorem lex_eq {source : String} {tokens : List Token} (spelled : Lexes source.toList tokens) :
    lex source = tokens := by
  obtain ⟨fuel, enough⟩ := Nat.exists_eq_add_of_le spelled.short
  have split := spelled.split fuel [] (fun _ none => nomatch none)
  rw [List.append_nil] at split
  rw [lex, enough, split]
  cases fuel <;> simp [lexWith]

end Lexes

/-! ## Numbers and strings -/

/-- A character that begins a number is the first of a numeral. -/
theorem lexeme_numeral {c : Char} (begins : c = '-' ∨ c.isDigit = true) (rest : List Char) :
    lexeme c rest = numeral (c :: rest) := by
  unfold lexeme
  split
  case h_11 => exact if_pos begins
  all_goals simp at begins

theorem isBlank_numeral {c : Char} (begins : c = '-' ∨ c.isDigit = true) : isBlank c = false := by
  rcases begins with rfl | digit
  · rfl
  · simp only [isBlank, Bool.or_eq_false_iff, beq_eq_false_iff_ne]
    refine ⟨⟨⟨?_, ?_⟩, ?_⟩, ?_⟩ <;> rintro rfl <;> cases digit

/-- The characters of a numeral spell its number. -/
theorem lexes_numeral {n : Numeral} {chars : List Char} (spelled : n.Spells chars) :
    Lexes chars [.number n.number] := by
  obtain ⟨c, tail, rfl, begins⟩ := spelled.eq_cons
  refine .single (isBlank_numeral begins) fun rest ends => ?_
  rw [lexeme_numeral begins, ← List.cons_append, numeral, spelled.scan ends]

/-- The characters of a string spell what its pieces denote. -/
theorem lexes_text {pieces : List Text.Piece} {chars : List Char}
    (spelled : Text.Spells pieces chars) :
    Lexes ('"' :: (chars ++ ['"'])) [.text (decoded none pieces)] := by
  refine .single rfl fun rest _ => ?_
  have scanned : quoted (chars ++ ['"'] ++ rest) = (.text (decoded none pieces), rest) := by
    rw [List.append_assoc, List.singleton_append, quoted, spelled.scan]
  exact scanned

end OperatorGen.Json.Token
