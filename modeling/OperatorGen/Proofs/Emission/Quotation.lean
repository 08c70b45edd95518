import Mathlib.Data.List.Forall2
import OperatorGen.Proofs.Emission.Literals

/-!
# Quoted texts

A string literal is scanned from its opening quote on: a backslash takes along the character
behind it, whatever that is, and the first quote that is not taken along closes the literal
(`scanLiteral?`). A literal quotes a text if it is closed by its last character and by none
before, and if the text comes back when the escapes of backslashes and quotes are undone
(`Quotes`); it quotes the text exactly if it has no other escapes (`QuotesExactly`). Every
title is quoted exactly (`title_quoted`). A display name need not be, as only its quotes are
escaped: what becomes of its literal depends on what stands behind the backslashes of the name
(`displayed_names`).
-/
namespace OperatorGen.Setup

/-! ## Scanning -/

/-- A character between the quotes of a literal. -/
inductive LiteralChar where
  /-- A character by itself. -/
  | plain (c : Char)
  /-- A character that the backslash in front of it takes along. -/
  | escaped (c : Char)
  deriving DecidableEq, Repr

namespace LiteralChar

/-- The characters as they are written. -/
def written : LiteralChar → List Char
  | plain c => [c]
  | escaped c => ['\\', c]

/-- What is left when the escapes of backslashes and quotes are undone. Any other escape is
    kept. -/
def undone : LiteralChar → List Char
  | plain c => [c]
  | escaped c => if c = '\\' ∨ c = '"' then [c] else ['\\', c]

/-- A character by itself neither closes a literal nor takes another character along. -/
def Stands : LiteralChar → Prop
  | plain c => c ≠ '"' ∧ c ≠ '\\'
  | escaped _ => True

/-- A character is escaped only if it is a backslash or a quote. -/
def Needed : LiteralChar → Prop
  | plain _ => True
  | escaped c => c = '\\' ∨ c = '"'

end LiteralChar

/-- Scans a literal behind its opening quote: the characters up to the closing quote, and what
    stands behind that. -/
def scanLiteralRest? : List Char → Option (List LiteralChar × List Char)
  | [] => none
  | '"' :: rest => some ([], rest)
  | ['\\'] => none
  | '\\' :: c :: rest => (scanLiteralRest? rest).map (Prod.map (.escaped c :: ·) id)
  | c :: rest => (scanLiteralRest? rest).map (Prod.map (.plain c :: ·) id)

/-- Scans the literal with which a text begins. -/
def scanLiteral? : List Char → Option (List LiteralChar × List Char)
  | '"' :: rest => scanLiteralRest? rest
  | _ => none

theorem scanLiteralRest?_written {u : LiteralChar} (stands : u.Stands) (rest : List Char) :
    scanLiteralRest? (u.written ++ rest) = (scanLiteralRest? rest).map (Prod.map (u :: ·) id) := by
  cases u with
  | plain c =>
    rw [LiteralChar.written, List.singleton_append, scanLiteralRest?]
    all_goals simp [stands.1, stands.2]
  | escaped c => rfl

/-- A character that neither ends a text as a backslash nor takes one along is none. -/
theorem ne_backslash {c : Char} {rest : List Char} (last : c = '\\' → rest = [] → False)
    (inFront : ∀ (d : Char) (others : List Char), c = '\\' → rest = d :: others → False) :
    c ≠ '\\' := by
  cases rest with
  | nil => exact fun backslash => last backslash rfl
  | cons d others => exact fun backslash => inFront d others backslash rfl

/-- The scanner takes what is written of characters that stand, up to the first quote. -/
theorem scanLiteralRest?_eq_some_iff {chars behind : List Char} {inner : List LiteralChar} :
    scanLiteralRest? chars = some (inner, behind) ↔
      (∀ u ∈ inner, u.Stands) ∧ chars = inner.flatMap LiteralChar.written ++ '"' :: behind := by
  constructor
  · intro scanned
    fun_induction scanLiteralRest? chars generalizing inner behind with
    | case1 => cases scanned
    | case2 rest =>
      cases scanned
      exact ⟨List.forall_mem_nil _, rfl⟩
    | case3 => cases scanned
    | case4 c rest ih =>
      obtain ⟨⟨others, _⟩, scannedRest, same⟩ := Option.map_eq_some_iff.mp scanned
      cases same
      obtain ⟨stand, written⟩ := ih scannedRest
      exact ⟨List.forall_mem_cons.mpr ⟨trivial, stand⟩, by rw [written]; rfl⟩
    | case5 c rest notQuote last inFront ih =>
      obtain ⟨⟨others, _⟩, scannedRest, same⟩ := Option.map_eq_some_iff.mp scanned
      cases same
      obtain ⟨stand, written⟩ := ih scannedRest
      exact ⟨List.forall_mem_cons.mpr ⟨⟨notQuote, ne_backslash last inFront⟩, stand⟩,
        by rw [written]; rfl⟩
  · rintro ⟨stand, rfl⟩
    induction inner with
    | nil => rfl
    | cons u rest ih =>
      rw [List.forall_mem_cons] at stand
      rw [List.flatMap_cons, List.append_assoc, scanLiteralRest?_written stand.1, ih stand.2]
      rfl

/-! ## Quoting -/

/-- A literal has these characters between its quotes: it is closed by its last character, so
    that it is scanned as a whole, whatever stands behind it. -/
def Encloses (literal : List Char) (inner : List LiteralChar) : Prop :=
  ∀ behind, scanLiteral? (literal ++ behind) = some (inner, behind)

/-- A literal quotes a text: the text comes back when the escapes of backslashes and quotes are
    undone. -/
def Quotes (literal text : List Char) : Prop :=
  ∃ inner, Encloses literal inner ∧ inner.flatMap LiteralChar.undone = text

/-- A literal quotes a text, and has no escapes but those of backslashes and quotes. -/
def QuotesExactly (literal text : List Char) : Prop :=
  ∃ inner, Encloses literal inner ∧ inner.flatMap LiteralChar.undone = text ∧
    ∀ u ∈ inner, u.Needed

theorem encloses_iff {literal : List Char} {inner : List LiteralChar} :
    Encloses literal inner ↔ (∀ u ∈ inner, u.Stands) ∧
      literal = '"' :: (inner.flatMap LiteralChar.written ++ ['"']) := by
  constructor
  · intro encloses
    have scanned := encloses []
    rw [List.append_nil] at scanned
    unfold scanLiteral? at scanned
    split at scanned
    · obtain ⟨stand, written⟩ := scanLiteralRest?_eq_some_iff.mp scanned
      exact ⟨stand, congrArg _ written⟩
    · cases scanned
  · rintro ⟨stand, rfl⟩ behind
    exact scanLiteralRest?_eq_some_iff.mpr ⟨stand, List.append_assoc _ _ _⟩

theorem encloses_cons_iff {rest : List Char} {inner : List LiteralChar} :
    Encloses ('"' :: rest) inner ↔ scanLiteralRest? rest = some (inner, []) := by
  rw [encloses_iff, scanLiteralRest?_eq_some_iff, List.cons.injEq]
  simp

/-- A character as it stands in a title. -/
def titleUnit (c : Char) : LiteralChar :=
  if c = '\\' ∨ c = '"' then .escaped c else .plain c

theorem titleUnit_spec (c : Char) : (titleUnit c).Stands ∧ (titleUnit c).Needed ∧
    (titleUnit c).written = titleChar c ∧ (titleUnit c).undone = [c] := by
  by_cases backslash : c = '\\'
  · subst backslash
    exact ⟨trivial, .inl rfl, rfl, rfl⟩
  · by_cases quote : c = '"'
    · subst quote
      exact ⟨trivial, .inr rfl, rfl, rfl⟩
    · simp [titleUnit, titleChar, backslash, quote, LiteralChar.Stands, LiteralChar.Needed,
        LiteralChar.written, LiteralChar.undone]

/-- A character that is escaped only if needed is what a title has for what it stands for. -/
theorem titleChars_undone {u : LiteralChar} (stands : u.Stands) (needed : u.Needed) :
    u.undone.flatMap titleChar = u.written := by
  cases u with
  | plain c => simp [LiteralChar.undone, LiteralChar.written, titleChar, stands.1, stands.2]
  | escaped c =>
    rcases needed with rfl | rfl
    · rfl
    · rfl

/-- A text has one literal that quotes it exactly, the one in which its quotes and backslashes are
    escaped. -/
theorem quotesExactly_iff {literal text : List Char} :
    QuotesExactly literal text ↔ literal = '"' :: (text.flatMap titleChar ++ ['"']) := by
  constructor
  · rintro ⟨inner, encloses, rfl, needed⟩
    obtain ⟨stand, rfl⟩ := encloses_iff.mp encloses
    rw [List.flatMap_assoc,
      List.flatMap_congr fun u member => titleChars_undone (stand u member) (needed u member)]
  · rintro rfl
    refine ⟨text.map titleUnit, encloses_iff.mpr ⟨?_, ?_⟩, ?_, ?_⟩
    · exact List.forall_mem_map.mpr fun c _ => (titleUnit_spec c).1
    · rw [List.flatMap_map, List.flatMap_congr fun c _ => (titleUnit_spec c).2.2.1]
    · rw [List.flatMap_map, List.flatMap_congr fun c _ => (titleUnit_spec c).2.2.2,
        List.flatMap_singleton']
    · exact List.forall_mem_map.mpr fun c _ => (titleUnit_spec c).2.1

theorem quotesExactly_iff_reads {literal text : List Char} :
    QuotesExactly literal text ↔ readLiteral? literal = some text :=
  quotesExactly_iff.trans readLiteral?_eq_some_iff.symm

/-! ## Titles -/

/-- The literal of a title quotes exactly what is displayed: the name, or the spelling if there is
    no name. Two arguments have one literal only if the same is displayed of them. -/
theorem title_quoted (argument : Argument) :
    QuotesExactly (titleLiteral argument).toList
        (if argument.name = "" then argument.ident.text else argument.name).toList ∧
      ∀ other : Argument, titleLiteral other = titleLiteral argument ↔
        other.title = argument.title := by
  have displayed : (if argument.name = "" then argument.ident.text else argument.name) =
      argument.title := by
    simp [Argument.title, String.isEmpty_iff]
  rw [displayed, quotesExactly_iff_reads]
  refine ⟨readLiteral?_titleLiteral argument, fun other => ⟨fun same => ?_, fun same => ?_⟩⟩
  · have reads := readLiteral?_titleLiteral other
    rw [same, readLiteral?_titleLiteral argument, Option.some.injEq] at reads
    exact (String.toList_inj.mp reads).symm
  · rw [titleLiteral, titleLiteral, same]

/-! ## Display names -/

/-- Every backslash of a text takes along the character behind it, which has to be one of those
    that are allowed. -/
def takesOnly (allowed : Char → Bool) : List Char → Bool
  | [] => true
  | ['\\'] => false
  | '\\' :: c :: rest => allowed c && takesOnly allowed rest
  | _ :: rest => takesOnly allowed rest

/-- The characters of a display name as they are scanned in its literal. -/
def nameUnits : List Char → List LiteralChar
  | [] => []
  | ['\\'] => []
  | '\\' :: c :: rest => .escaped c :: nameUnits rest
  | c :: rest => titleUnit c :: nameUnits rest

theorem scanned_cons_iff {scanned : Option (List LiteralChar × List Char)} {u : LiteralChar}
    {inner : List LiteralChar} {behind : List Char} :
    scanned.map (Prod.map (u :: ·) id) = some (inner, behind) ↔
      ∃ others, scanned = some (others, behind) ∧ inner = u :: others := by
  rw [Option.map_eq_some_iff]
  constructor
  · rintro ⟨⟨others, _⟩, rest, same⟩
    cases same
    exact ⟨others, rest, rfl⟩
  · rintro ⟨others, rest, rfl⟩
    exact ⟨_, rest, rfl⟩

/-- The literal of a display name is closed by its last character exactly if every backslash of
    the name takes something along, and none a quote. -/
theorem scanLiteralRest?_names {text : List Char} {inner : List LiteralChar} :
    scanLiteralRest? (text.flatMap nameChar ++ ['"']) = some (inner, []) ↔
      takesOnly (· ≠ '"') text = true ∧ inner = nameUnits text := by
  fun_induction takesOnly (· ≠ '"') text generalizing inner with
  | case1 => simp [scanLiteralRest?, nameUnits, eq_comm]
  | case2 => simp [scanLiteralRest?, nameChar]
  | case3 c rest ih =>
    by_cases quote : c = '"'
    · subst quote
      -- The second backslash is that of the escape of the quote, which closes the literal.
      simp [scanLiteralRest?, nameChar]
    · have written : ('\\' :: c :: rest).flatMap nameChar ++ ['"'] =
          '\\' :: c :: (rest.flatMap nameChar ++ ['"']) := by
        simp [nameChar, quote]
      rw [written, scanLiteralRest?, scanned_cons_iff]
      simp [ih, nameUnits, quote]
  | case4 c rest last inFront ih =>
    obtain ⟨stands, -, written, -⟩ := titleUnit_spec c
    rw [List.flatMap_cons, nameChar_eq_titleChar (ne_backslash last inFront), ← written,
      List.append_assoc, scanLiteralRest?_written stands, scanned_cons_iff]
    simp [ih, nameUnits]

theorem length_undone_names (text : List Char) :
    ((nameUnits text).flatMap LiteralChar.undone).length ≤ text.length := by
  fun_induction nameUnits text with
  | case1 => exact Nat.le_refl 0
  | case2 => exact Nat.zero_le 1
  | case3 c rest ih =>
    have short : (LiteralChar.escaped c).undone.length ≤ 2 := by
      rw [LiteralChar.undone]
      split
      · exact Nat.le_succ 1
      · exact Nat.le_refl 2
    rw [List.flatMap_cons, List.length_append, List.length_cons, List.length_cons]
    omega
  | case4 c rest _ _ ih =>
    rw [List.flatMap_cons, (titleUnit_spec c).2.2.2]
    simpa using ih

/-- Whether a backslash in front of a character is no escape of a backslash or a quote. -/
def isOrdinary (c : Char) : Bool :=
  c ≠ '\\' && c ≠ '"'

theorem takesOnly_mono {allowed weaker : Char → Bool}
    (imp : ∀ c, allowed c = true → weaker c = true) {text : List Char}
    (takes : takesOnly allowed text = true) : takesOnly weaker text = true := by
  fun_induction takesOnly allowed text with
  | case1 => rfl
  | case2 => cases takes
  | case3 c rest ih =>
    rw [Bool.and_eq_true] at takes
    rw [takesOnly, imp c takes.1, ih takes.2]
    rfl
  | case4 c rest last inFront ih =>
    rw [takesOnly]
    · exact ih takes
    · exact last
    · exact inFront

/-- A display name comes back from its literal, provided that this is closed at its end, exactly
    if the backslashes of the name are no escapes. -/
theorem undone_names_iff {text : List Char} (closed : takesOnly (· ≠ '"') text = true) :
    (nameUnits text).flatMap LiteralChar.undone = text ↔ takesOnly isOrdinary text = true := by
  fun_induction takesOnly isOrdinary text with
  | case1 => simp [nameUnits]
  | case2 => cases closed
  | case3 c rest ih =>
    rw [takesOnly, Bool.and_eq_true, decide_eq_true_iff] at closed
    rw [nameUnits, List.flatMap_cons]
    by_cases backslash : c = '\\'
    · subst backslash
      -- The pair comes back as one backslash, and the rest does not make up for it.
      refine iff_of_false (fun same => ?_) (by simp [isOrdinary])
      have sizes : ((nameUnits rest).flatMap LiteralChar.undone).length + 1 = rest.length + 2 :=
        congrArg List.length same
      have bounded := length_undone_names rest
      omega
    · simp [LiteralChar.undone, isOrdinary, backslash, closed.1, ih closed.2]
  | case4 c rest last inFront ih =>
    have closedRest : takesOnly (· ≠ '"') rest = true := by
      rwa [takesOnly] at closed
      · exact last
      · exact inFront
    have units : nameUnits (c :: rest) = titleUnit c :: nameUnits rest := by
      rw [nameUnits]
      · exact last
      · exact inFront
    rw [units, List.flatMap_cons, (titleUnit_spec c).2.2.2, List.singleton_append, List.cons.injEq,
      ih closedRest]
    exact and_iff_right rfl

section

variable (description : EnumDescription)

theorem nameLiteral_toList : (nameLiteral description).toList =
    '"' :: (description.title.toList.flatMap nameChar ++ ['"']) := by
  rw [nameLiteral_eq, String.toList_ofList]

theorem encloses_nameLiteral_iff :
    (∃ inner, Encloses (nameLiteral description).toList inner) ↔
      takesOnly (· ≠ '"') description.title.toList = true := by
  simp only [nameLiteral_toList, encloses_cons_iff, scanLiteralRest?_names]
  exact ⟨fun ⟨_, closed, _⟩ => closed, fun closed => ⟨_, closed, rfl⟩⟩

theorem quotes_nameLiteral_iff :
    Quotes (nameLiteral description).toList description.title.toList ↔
      takesOnly isOrdinary description.title.toList = true := by
  simp only [Quotes, nameLiteral_toList, encloses_cons_iff, scanLiteralRest?_names]
  constructor
  · rintro ⟨_, ⟨closed, rfl⟩, back⟩
    exact (undone_names_iff closed).mp back
  · intro ordinary
    have closed : takesOnly (· ≠ '"') description.title.toList = true :=
      takesOnly_mono (fun c plain => by simp_all [isOrdinary]) ordinary
    exact ⟨_, ⟨closed, rfl⟩, (undone_names_iff closed).mpr ordinary⟩

/-- What can be said of a literal for the name of a description: whether it is closed by its last
    character, and whether it quotes the name, depends on what the backslashes of the name take
    along, and it quotes the name exactly if there are none. -/
structure NamesUpTo (literal : String) : Prop where
  closed : (∃ inner, Encloses literal.toList inner) ↔
    takesOnly (· ≠ '"') description.title.toList = true
  quoted : Quotes literal.toList description.title.toList ↔
    takesOnly isOrdinary description.title.toList = true
  exactly : QuotesExactly literal.toList description.title.toList ↔
    '\\' ∉ description.title.toList

theorem namesUpTo_nameLiteral : NamesUpTo description (nameLiteral description) where
  closed := encloses_nameLiteral_iff description
  quoted := quotes_nameLiteral_iff description
  exactly := quotesExactly_iff_reads.trans (readLiteral?_nameLiteral_iff description)

end

/-! ## Values of enum parameters -/

/-- A line that adds the value of a description, which has an index, to an enum parameter, with a
    literal for its display name. -/
def Displays (config : Config) (parameter : Parameter) (named : EnumDescription → String → Prop)
    (entry : EnumDescription × Nat) (step : Step) : Prop :=
  ∃ literal, named entry.1 literal ∧
    step = .line (parameterVariable parameter ++ "->add(" ++ config.runtime "EnumDescription" ++
      "(" ++ config.runtime "Enum" ++ "(" ++
      descriptionValue parameter.argument.ident entry.2 entry.1 ++ "), " ++ literal ++ "));")

/-- The description of an enum parameter for the runtime adds its values in order, with literals
    for their display names. -/
def DisplaysEach (config : Config) (enumeration : EnumParameter)
    (named : EnumDescription → String → Prop) : Prop :=
  ∃ adds, List.Forall₂ (Displays config enumeration.parameter named)
      enumeration.descriptions.zipIdx adds ∧
    describeEnum config enumeration = describeParameter config enumeration.parameter
      (config.runtime "EnumParameter" ++ "(" ++
        enumeration.parameter.argument.ident.constant ++ ")") adds

theorem displaysEach_iff {config : Config} {enumeration : EnumParameter}
    {named : EnumDescription → String → Prop} :
    DisplaysEach config enumeration named ↔
      ∀ description ∈ enumeration.descriptions, named description (nameLiteral description) := by
  constructor
  · rintro ⟨adds, displays, described⟩ description member
    rw [describeEnum, describeParameter, describeParameter, List.append_cancel_right_eq,
      List.append_cancel_left_eq] at described
    rw [← described, List.mapIdx_eq_zipIdx_map, List.forall₂_map_right_iff,
      List.forall₂_same] at displays
    obtain ⟨index, present⟩ := List.getElem?_of_mem member
    obtain ⟨literal, names, line⟩ :=
      displays (description, index) (List.mem_zipIdx_iff_getElem?.mpr present)
    have same := Step.line.inj line
    rw [String.append_left_inj, String.append_right_inj] at same
    rwa [same]
  · intro names
    refine ⟨_, ?_, rfl⟩
    rw [List.mapIdx_eq_zipIdx_map, List.forall₂_map_right_iff, List.forall₂_same]
    rintro ⟨description, index⟩ member
    exact ⟨nameLiteral description, names description (List.fst_mem_of_mem_zipIdx member), rfl⟩

/-- What becomes of the display names of an enum parameter in its description for the runtime:
    each stands in a literal, which is closed and quotes the name as far as the backslashes of
    the name let it. -/
theorem displayed_names (config : Config) (enumeration : EnumParameter) :
    DisplaysEach config enumeration NamesUpTo :=
  displaysEach_iff.mpr fun description _ => namesUpTo_nameLiteral description

/-- A display name need not be quoted: with a backslash at its end its literal is not closed. -/
theorem trailing_backslash_unquoted :
    ¬ ∀ (config : Config) (enumeration : EnumParameter),
      DisplaysEach config enumeration fun description literal =>
        Quotes literal.toList description.title.toList := by
  intro quotes
  let description := EnumDescription.make ⟨"fast"⟩ "a\\" none
  let mode := { EnumParameter.make ⟨"mode"⟩ "" with descriptions := [description] }
  have quoted := displaysEach_iff.mp (quotes .standard mode) description List.mem_cons_self
  rw [quotes_nameLiteral_iff] at quoted
  exact absurd quoted (by decide)

end OperatorGen.Setup
