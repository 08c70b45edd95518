import OperatorGen.Json.Text
import OperatorGen.Proofs.FirstError

/-!
# Strings as 16-bit units

A string of JSON is a sequence of 16-bit units, whichever way each is written. A text is
denoted by the units that encode it, and by no others (`decode_ok_iff`), so what a string
denotes does not depend on how it is written; units that are no encoding denote nothing.
-/
namespace OperatorGen.Json.Text

/-- A part of a string as it is written: a character, or a 16-bit unit by its digits. -/
inductive Part where
  | char (c : Char)
  | unit (code : UInt16)
  deriving DecidableEq, Repr, Inhabited

def Part.piece : Part → Piece
  | char c => .char c
  | unit code => .unit code.toNat

/-- The units that encode a character: itself, or a pair of surrogates. -/
def encode (c : Char) : List Nat :=
  if c.toNat < 0x10000 then [c.toNat]
  else [0xD800 + (c.toNat - 0x10000) / 0x400, 0xDC00 + (c.toNat - 0x10000) % 0x400]

def Part.units : Part → List Nat
  | char c => encode c
  | unit code => [code.toNat]

/-- The units of a string. -/
def units (parts : List Part) : List Nat :=
  parts.flatMap Part.units

/-- What the parts of a string denote, unless a surrogate has no partner. -/
def read (parts : List Part) : Except Fault (List Char) :=
  decode none (parts.map Part.piece)

/-! ## Characters and surrogates -/

/-- No character is a surrogate. -/
theorem toNat_cases (c : Char) :
    c.toNat < 0xD800 ∨ 0xDFFF < c.toNat ∧ c.toNat < 0x110000 :=
  c.valid

theorem isLow_iff {code : Nat} : isLow code = true ↔ 0xDC00 ≤ code ∧ code ≤ 0xDFFF := by
  simp [isLow]

theorem isHigh_iff {code : Nat} : isHigh code = true ↔ 0xD800 ≤ code ∧ code ≤ 0xDBFF := by
  simp [isHigh]

theorem not_isLow_of_isHigh {code : Nat} (high : isHigh code = true) : isLow code = false := by
  rw [← Bool.not_eq_true, isLow_iff]
  rw [isHigh_iff] at high
  omega

theorem toNat_ofNat_of_valid {n : Nat} (valid : n < 0xD800 ∨ 0xDFFF < n ∧ n < 0x110000) :
    (Char.ofNat n).toNat = n := by
  rw [Char.ofNat, dif_pos valid]
  rfl

/-- A unit that is no surrogate encodes the character with its code. -/
theorem encode_ofNat {code : Nat} (small : code < 0x10000) (notLow : isLow code = false)
    (notHigh : isHigh code = false) : encode (Char.ofNat code) = [code] := by
  rw [← Bool.not_eq_true, isLow_iff] at notLow
  rw [← Bool.not_eq_true, isHigh_iff] at notHigh
  have same : (Char.ofNat code).toNat = code := toNat_ofNat_of_valid (by omega)
  rw [encode, same, if_pos small]

theorem encode_joinPair {high low : Nat} (isHigh : isHigh high = true) (isLow : isLow low = true) :
    encode (joinPair high low) = [high, low] := by
  rw [isHigh_iff] at isHigh
  rw [isLow_iff] at isLow
  have same : (joinPair high low).toNat = 0x10000 + (high - 0xD800) * 0x400 + (low - 0xDC00) :=
    toNat_ofNat_of_valid (by omega)
  rw [encode, same, if_neg (by omega), List.cons.injEq, List.cons.injEq]
  exact ⟨by omega, by omega, rfl⟩

/-- The encoding of a character: one unit that is no surrogate, or a pair that it joins. -/
theorem encode_cases (c : Char) :
    (∃ code, encode c = [code] ∧ isLow code = false ∧ isHigh code = false ∧
        Char.ofNat code = c) ∨
      ∃ high low, encode c = [high, low] ∧ isHigh high = true ∧ isLow low = true ∧
        joinPair high low = c := by
  have valid := toNat_cases c
  by_cases small : c.toNat < 0x10000
  · refine .inl ⟨c.toNat, if_pos small, ?_, ?_, Char.ofNat_toNat c⟩
    · rw [← Bool.not_eq_true, isLow_iff]; omega
    · rw [← Bool.not_eq_true, isHigh_iff]; omega
  · refine .inr ⟨_, _, if_neg small, ?_, ?_, ?_⟩
    · rw [isHigh_iff]; omega
    · rw [isLow_iff]; omega
    · have same : 0x10000 + (0xD800 + (c.toNat - 0x10000) / 0x400 - 0xD800) * 0x400 +
          (0xDC00 + (c.toNat - 0x10000) % 0x400 - 0xDC00) = c.toNat := by omega
      rw [joinPair, same, Char.ofNat_toNat]

theorem encode_ne_nil (c : Char) (more : List Nat) : encode c ++ more ≠ [] := by
  rcases encode_cases c with ⟨_, encoded, -⟩ | ⟨_, _, encoded, -⟩ <;> rw [encoded] <;> exact nofun

/-- No encoding begins with the second unit of a pair. -/
theorem encode_ne_low {c : Char} {low : Nat} (isLow : isLow low = true) (more rest : List Nat) :
    encode c ++ more ≠ low :: rest := by
  intro same
  rcases encode_cases c with ⟨code, encoded, notLow, -, -⟩ | ⟨high, _, encoded, isHigh, -, -⟩
  · rw [encoded] at same
    rw [(List.cons.inj same).1, isLow] at notLow
    cases notLow
  · rw [encoded] at same
    have notLow := not_isLow_of_isHigh isHigh
    rw [(List.cons.inj same).1, isLow] at notLow
    cases notLow

/-! ## Reading -/

theorem read_char (c : Char) (rest : List Part) :
    read (.char c :: rest) = (read rest).map (c :: ·) := by
  rw [read, List.map_cons, Part.piece, decode]
  rw [read]
  cases decode none (rest.map Part.piece) <;> rfl

/-- A unit that is no surrogate denotes the character with its code. -/
theorem read_unit {code : UInt16} (notLow : isLow code.toNat = false)
    (notHigh : isHigh code.toNat = false) (rest : List Part) :
    read (.unit code :: rest) = (read rest).map (Char.ofNat code.toNat :: ·) := by
  rw [read, List.map_cons, Part.piece, decode.eq_def]
  simp only [notLow, notHigh, Bool.false_eq_true, if_false]
  rw [read]
  cases decode none (rest.map Part.piece) <;> rfl

/-- Two units that are a pair denote the character that they join. -/
theorem read_pair {high low : UInt16} (isHigh : isHigh high.toNat = true)
    (isLow : isLow low.toNat = true) (rest : List Part) :
    read (.unit high :: .unit low :: rest) =
      (read rest).map (joinPair high.toNat low.toNat :: ·) := by
  rw [read, List.map_cons, List.map_cons, Part.piece, Part.piece, decode.eq_def]
  simp only [not_isLow_of_isHigh isHigh, isHigh, isLow, Bool.false_eq_true, if_false, if_true]
  rw [read]
  cases decode none (rest.map Part.piece) <;> rfl

/-- A surrogate is read only together with its partner. -/
theorem exists_pair_of_read {code : UInt16} {rest : List Part} {chars : List Char}
    (denoted : read (.unit code :: rest) = .ok chars)
    (surrogate : ¬ (isLow code.toNat = false ∧ isHigh code.toNat = false)) :
    isHigh code.toNat = true ∧
      ∃ low others, rest = .unit low :: others ∧ isLow low.toNat = true := by
  rw [read, List.map_cons, Part.piece, decode.eq_def] at denoted
  cases isLow : isLow code.toNat with
  | true => simp [isLow] at denoted
  | false =>
    cases isHigh : isHigh code.toNat with
    | false => exact absurd ⟨isLow, isHigh⟩ surrogate
    | true =>
      refine ⟨rfl, ?_⟩
      cases rest with
      | nil => simp [isLow, isHigh] at denoted
      | cons next others =>
        cases next with
        | char c => simp [isLow, isHigh, Part.piece] at denoted
        | unit low =>
          cases isLow' : Text.isLow low.toNat with
          | true => exact ⟨low, others, rfl, isLow'⟩
          | false => simp [isLow, isHigh, Part.piece, isLow'] at denoted

theorem units_cons (part : Part) (rest : List Part) :
    units (part :: rest) = part.units ++ units rest :=
  List.flatMap_cons

theorem units_of_read : ∀ {parts : List Part} {chars : List Char},
    read parts = .ok chars → units parts = chars.flatMap encode
  | [], chars, denoted => by
    cases denoted
    rfl
  | .char c :: rest, chars, denoted => by
    rw [read_char] at denoted
    obtain ⟨others, later, rfl⟩ := map_ok_iff.mp denoted
    rw [units_cons, List.flatMap_cons, units_of_read later, Part.units]
  | .unit code :: rest, chars, denoted => by
    by_cases single : isLow code.toNat = false ∧ isHigh code.toNat = false
    · rw [read_unit single.1 single.2] at denoted
      obtain ⟨others, later, rfl⟩ := map_ok_iff.mp denoted
      rw [units_cons, List.flatMap_cons, units_of_read later,
        encode_ofNat code.toNat_lt single.1 single.2, Part.units]
    · obtain ⟨isHigh, low, behind, rfl, isLow⟩ := exists_pair_of_read denoted single
      rw [read_pair isHigh isLow] at denoted
      obtain ⟨others, later, rfl⟩ := map_ok_iff.mp denoted
      rw [units_cons, units_cons, List.flatMap_cons, units_of_read later,
        encode_joinPair isHigh isLow, Part.units, Part.units]
      rfl

theorem encode_append_inj {c d : Char} {more others : List Nat}
    (same : encode c ++ more = encode d ++ others) : c = d ∧ more = others := by
  rcases encode_cases c with ⟨code, left, -, notHigh, rfl⟩ | ⟨high, low, left, isHigh, -, rfl⟩ <;>
    rcases encode_cases d with
      ⟨code', right, -, notHigh', rfl⟩ | ⟨high', low', right, isHigh', -, rfl⟩ <;>
    rw [left, right] at same <;>
    simp only [List.cons_append, List.nil_append, List.cons.injEq] at same
  · exact ⟨by rw [same.1], same.2⟩
  · rw [same.1, isHigh'] at notHigh
    cases notHigh
  · rw [← same.1, isHigh] at notHigh'
    cases notHigh'
  · exact ⟨by rw [same.1, same.2.1], same.2.2⟩

/-- Only a unit as it is written gives the second unit of a pair. -/
theorem exists_low_of_units {parts : List Part} {low : Nat} {more : List Nat}
    (isLow : isLow low = true) (same : units parts = low :: more) :
    ∃ code rest, parts = .unit code :: rest ∧ code.toNat = low ∧ units rest = more := by
  cases parts with
  | nil => cases same
  | cons part rest =>
    rw [units_cons] at same
    cases part with
    | char c => exact absurd same (encode_ne_low isLow _ _)
    | unit code =>
      obtain ⟨first, others⟩ := List.cons.inj same
      exact ⟨code, rest, rfl, first, others⟩

theorem read_of_units : ∀ {parts : List Part} {chars : List Char},
    units parts = chars.flatMap encode → read parts = .ok chars
  | [], [], _ => rfl
  | [], c :: _, same => by
    rw [List.flatMap_cons] at same
    exact absurd same.symm (encode_ne_nil c _)
  | .char c :: _, [], same => by
    rw [units_cons] at same
    exact absurd same (encode_ne_nil c _)
  | .unit _ :: _, [], same => nomatch same
  | .char c :: rest, d :: chars, same => by
    rw [units_cons, List.flatMap_cons] at same
    obtain ⟨rfl, later⟩ := encode_append_inj same
    rw [read_char, read_of_units later]
    rfl
  | .unit code :: rest, d :: chars, same => by
    rw [units_cons, List.flatMap_cons, Part.units] at same
    -- The unit encodes the whole character, or it needs the next unit for that.
    rcases encode_cases d with
      ⟨_, encoded, notLow, notHigh, joined⟩ | ⟨_, low, encoded, isHigh, isLow, joined⟩
    · rw [encoded] at same
      obtain ⟨rfl, later⟩ := List.cons.inj same
      rw [read_unit notLow notHigh, read_of_units later, joined]
      rfl
    · rw [encoded] at same
      obtain ⟨rfl, behind⟩ := List.cons.inj same
      obtain ⟨code', others, rfl, rfl, later⟩ := exists_low_of_units isLow behind
      rw [read_pair isHigh isLow, read_of_units later, joined]
      rfl

/-- A string denotes a text exactly if its units encode the text. -/
theorem read_ok_iff {parts : List Part} {chars : List Char} :
    read parts = .ok chars ↔ units parts = chars.flatMap encode :=
  ⟨units_of_read, read_of_units⟩

end OperatorGen.Json.Text
