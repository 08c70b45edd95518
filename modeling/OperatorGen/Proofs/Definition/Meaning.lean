import Mathlib
import OperatorGen.Definition.Reading
import OperatorGen.Proofs.Json.Agreement

/-!
# What a definition means

The package that a definition file describes depends on the JSON value of the file alone.
Packages, methods and options are read where they stand, by fields that respect sameness;
an item is read as a value first, and its members are sorted, so the order of its fields and
the place of its tag are gone before it is looked into.
-/
namespace OperatorGen

open Json (Datum Decoder Fields)
open Json.Datum (Same)
open Json.Text (Part Piece)
open Json.Token (Blank)
open Json.Datum (SameText)
open Json.Fields (respects_field)

/-! ## Fields -/

theorem Ident.respects_decoder : Ident.decoder.Respects :=
  Decoder.respects_text.map Ident.mk

theorem respects_identField : identField.Respects ["ident"] :=
  respects_field Ident.respects_decoder "ident" none

theorem respects_textField (name : String) : (textField name).Respects [name] :=
  respects_field Decoder.respects_text name (some "")

theorem respects_listField {α : Type} {element : Decoder α} (respects : element.Respects)
    (name : String) : (listField name element).Respects [name] :=
  respects_field respects.list name (some [])

/-! ## Records -/

theorem Item.respects_decoder : Item.decoder.Respects :=
  Decoder.respects_value.bind Item.ofValue

theorem MethodOption.respects_decoder : MethodOption.decoder.Respects :=
  ((respects_identField.and <| (respects_textField "name").and <|
    respects_listField Item.respects_decoder "args").map _).record "OptionDef"

theorem Method.respects_decoder : Method.decoder.Respects :=
  ((respects_identField.and <| (respects_textField "name").and <| (respects_textField "doc").and <|
    (respects_listField Decoder.respects_value "functions").and <|
      respects_listField MethodOption.respects_decoder "options").map _).record "Method"

theorem Version.respects_decoder : Version.decoder.Respects := by
  have number : ∀ name, (Fields.required name Decoder.word).Respects [name] :=
    fun name => respects_field Decoder.respects_word name none
  exact (((number "major").and <| (number "minor").and (number "patch")).map _).record "Version"

theorem Package.respects_decoder : Package.decoder.Respects := by
  have version : (Fields.required "version" Version.decoder).Respects ["version"] :=
    respects_field Version.respects_decoder "version" none
  exact ((respects_identField.and <| (respects_textField "name").and <|
    (respects_textField "description").and <| version.and <|
      respects_listField Method.respects_decoder "methods").map _).record "Package"

/-- Two texts that denote the same value describe the same package, if they describe any. -/
theorem Package.parse_ok_congr {first second : String} (same : SameText first second)
    (package : Package) : parse first = .ok package ↔ parse second = .ok package :=
  toOption_eq_iff.mp (respects_decoder.decode same) package

/-! ## Files that are written by hand -/

/-- A datum with characters that spell it. -/
structure Written where
  datum : Datum
  chars : List Char
  spelled : datum.Spells chars

/-- A name with characters that spell it. -/
structure WrittenName where
  parts : List Part
  chars : List Char
  spelled : Datum.Spells (.text parts) chars

/-- A character that stands for itself between quotes. -/
def standsForItself (c : Char) : Bool :=
  decide (0x20 ≤ c.toNat) && c != '"' && c != '\\'

theorem spells_char {c : Char} {pieces : List Piece} {chars : List Char}
    (others : Json.Text.Spells pieces chars) (plain : standsForItself c = true) :
    Json.Text.Spells (.char c :: pieces) (c :: chars) := by
  simp only [standsForItself, Bool.and_eq_true, decide_eq_true_eq, bne_iff_ne] at plain
  obtain ⟨⟨visible, quote⟩, backslash⟩ := plain
  exact .cons (.plain visible quote backslash) others

/-- A name that is written without escapes. -/
def WrittenName.plain (text : String)
    (plain : text.toList.all standsForItself = true) : WrittenName where
  parts := text.toList.map Part.char
  chars := '"' :: (text.toList ++ ['"'])
  spelled := by
    have inside : ∀ chars : List Char, chars.all standsForItself = true →
        Json.Text.Spells ((chars.map Part.char).map Part.piece) chars := by
      intro chars plain
      induction chars with
      | nil => exact .nil
      | cons c chars ih =>
        rw [List.all_cons, Bool.and_eq_true] at plain
        exact spells_char (ih plain.2) plain.1
    exact .text (inside _ plain)

namespace Written

/-- A text, written as a name is. -/
def text (name : WrittenName) : Written :=
  ⟨_, _, name.spelled⟩

/-- A whole number of one digit. -/
def digit (c : Char) (isDigit : c.isDigit = true) : Written where
  datum := .number ⟨false, [c], [], none⟩
  chars := [c]
  spelled := .number (.intro ⟨List.cons_ne_nil _ _, List.forall_mem_singleton.mpr isDigit⟩
    (fun _ => rfl) .nothing .nothing)

def list (first : Written) (rest : List Written) : Written where
  datum := .list ((first :: rest).map datum)
  chars := '[' :: (Datum.joined ((first :: rest).map chars) ++ [']'])
  spelled := by
    have spelled := @Datum.Spells.list
      ((first :: rest).map fun element => (element.datum, element.chars)) (List.cons_ne_nil _ _)
      (List.forall_mem_map.mpr fun element _ => element.spelled)
    rwa [List.map_map, List.map_map] at spelled

def object (first : WrittenName × Written) (rest : List (WrittenName × Written)) : Written where
  datum := .object ((first :: rest).map fun member => (member.1.parts, member.2.datum))
  chars := '\x7b' :: (Datum.joined ((first :: rest).map fun member =>
    member.1.chars ++ ':' :: member.2.chars) ++ ['\x7d'])
  spelled := by
    have spelled := @Datum.Spells.object ((first :: rest).map fun member =>
        ((member.1.parts, member.1.chars), (member.2.datum, member.2.chars)))
      (List.cons_ne_nil _ _) (List.forall_mem_map.mpr fun member _ => member.1.spelled)
      (List.forall_mem_map.mpr fun member _ => member.2.spelled)
    rwa [List.map_map, List.map_map] at spelled

end Written

open Written (text digit list object)
open WrittenName (plain)

/-- The name of the kind with an escape, and with a blank behind it. -/
def escapedKind : WrittenName where
  parts := [.char 'k', .char 'i', .char 'n', .unit 0x64]
  chars := "\"kin\\u0064\" ".toList
  spelled := by
    have last : Json.Text.Spells [.unit 0x64] "\\u0064".toList :=
      .cons (@Piece.Spells.digits '0' '0' '6' '4' 0x64 rfl) .nil
    have inside : Json.Text.Spells ([.char 'k', .char 'i', .char 'n', .unit 0x64].map Part.piece)
        "kin\\u0064".toList := spells_char (spells_char (spells_char last rfl) rfl) rfl
    have blank : Blank [] ∧ Blank [' '] := by decide
    exact .blanks blank.1 blank.2 (.text inside)

/-- The spelling of the node with an escape. -/
def escapedSource : WrittenName where
  parts := [.char 's', .unit 0x72, .char 'c']
  chars := "\"s\\u0072c\"".toList
  spelled := by
    have last : Json.Text.Spells [.unit 0x72, .char 'c'] "\\u0072c".toList :=
      .cons (@Piece.Spells.digits '0' '0' '7' '2' 0x72 rfl) (spells_char .nil rfl)
    have inside : Json.Text.Spells ([.char 's', .unit 0x72, .char 'c'].map Part.piece)
        "s\\u0072c".toList := spells_char last rfl
    exact .text inside

/-- An input with its tag in front. -/
def kindFirst : Written :=
  object (plain "kind" rfl, text (plain "input" rfl)) [(plain "ident" rfl, text (plain "src" rfl))]

/-- The same input with its tag behind, written with escapes. -/
def kindLast : Written :=
  object (plain "ident" rfl, text escapedSource) [(escapedKind, text (plain "input" rfl))]

/-- An input that has a member of a compound. -/
def compoundInput : Written :=
  object (plain "kind" rfl, text (plain "input" rfl))
    [(plain "ident" rfl, text (plain "src" rfl)), (plain "compound" rfl, text (plain "size" rfl))]

/-- An option that has one node. -/
def optionOf (node : Written) : Written :=
  object (plain "ident" rfl, text (plain "run" rfl)) [(plain "args" rfl, list node [])]

/-- A method that has one option. -/
def methodOf (option : Written) : Written :=
  object (plain "ident" rfl, text (plain "blur" rfl)) [(plain "options" rfl, list option [])]

/-- The version 1.0.2 by position. -/
def byPosition : Written :=
  list (digit '1' rfl) [digit '0' rfl, digit '2' rfl]

def packed : Written :=
  object (plain "ident" rfl, text (plain "cv" rfl))
    [(plain "version" rfl, byPosition),
      (plain "methods" rfl, list (methodOf (optionOf kindFirst)) [])]

/-- The same with the members of the package and of the node in the opposite order, and with
    escapes. -/
def loose : Written :=
  object (plain "methods" rfl, list (methodOf (optionOf kindLast)) [])
    [(plain "version" rfl, byPosition), (plain "ident" rfl, text (plain "cv" rfl))]

/-- The text of `packed`. -/
def packedFile : String :=
  "\x7b\"ident\":\"cv\",\"version\":[1,0,2],\"methods\":[\x7b\"ident\":\"blur\",\"options\":[" ++
    "\x7b\"ident\":\"run\",\"args\":[\x7b\"kind\":\"input\",\"ident\":\"src\"\x7d]\x7d]\x7d]\x7d"

/-- The text of `loose`, with blanks around it. -/
def looseFile : String :=
  "\n\x7b\"methods\":[\x7b\"ident\":\"blur\",\"options\":[\x7b\"ident\":\"run\",\"args\":[" ++
    "\x7b\"ident\":\"s\\u0072c\",\"kin\\u0064\" :\"input\"\x7d]\x7d]\x7d]," ++
    "\"version\":[1,0,2],\"ident\":\"cv\"\x7d "

theorem kindFirst_same : kindFirst.datum.Same kindLast.datum := by
  have escaped : kindFirst.datum.Same (object (escapedKind, text (plain "input" rfl))
      [(plain "ident" rfl, text escapedSource)]).datum :=
    .object_cons rfl (.refl _) <| .object_cons rfl (.text rfl) .emptyObject
  exact escaped.reorder (.swap _ _ _)

theorem optionOf_same {node other : Written} (same : node.datum.Same other.datum) :
    (optionOf node).datum.Same (optionOf other).datum :=
  .object_cons rfl (.refl _) <| .object_cons rfl (.list_cons same .emptyList) .emptyObject

theorem methodOf_same {option other : Written} (same : option.datum.Same other.datum) :
    (methodOf option).datum.Same (methodOf other).datum :=
  .object_cons rfl (.refl _) <| .object_cons rfl (.list_cons same .emptyList) .emptyObject

theorem packed_same_loose : packed.datum.Same loose.datum :=
  have methods := methodOf_same (optionOf_same kindFirst_same)
  (Same.object_cons rfl (.refl _) <| .object_cons rfl (.refl _) <|
    .object_cons rfl (.list_cons methods .emptyList) .emptyObject).reorder
      (List.reverse_perm _).symm

theorem distinct_text (name : WrittenName) : (text name).datum.Distinct :=
  .text _

theorem distinct_list {first : Written} {rest : List Written}
    (each : ∀ element ∈ first :: rest, element.datum.Distinct) :
    (list first rest).datum.Distinct :=
  .list (List.forall_mem_map.mpr each)

theorem distinct_object {first : WrittenName × Written} {rest : List (WrittenName × Written)}
    (once : ((first :: rest).map fun member => Json.Text.units member.1.parts).Nodup)
    (each : ∀ member ∈ first :: rest, member.2.datum.Distinct) :
    (object first rest).datum.Distinct :=
  .object (by rwa [Datum.names, List.map_map]) (List.forall_mem_map.mpr each)

theorem packed_distinct : packed.datum.Distinct := by
  have node : kindFirst.datum.Distinct :=
    distinct_object (by decide) (by simp [distinct_text])
  have option : (optionOf kindFirst).datum.Distinct :=
    distinct_object (by decide) (by simp [distinct_text, distinct_list, node])
  have method : (methodOf (optionOf kindFirst)).datum.Distinct :=
    distinct_object (by decide) (by simp [distinct_text, distinct_list, option])
  have version : byPosition.datum.Distinct :=
    distinct_list (by simp [digit, Datum.Distinct.number])
  exact distinct_object (by decide) (by simp [distinct_text, distinct_list, method, version])

theorem sameText_files : SameText packedFile looseFile := by
  have packedText : packedFile = String.ofList packed.chars := by cbv
  have looseText : looseFile = String.ofList (['\n'] ++ (loose.chars ++ [' '])) := by cbv
  have blank : Blank ['\n'] ∧ Blank [' '] := by decide
  refine ⟨packed.datum, loose.datum, ?_, ?_, packed_same_loose, packed_distinct⟩
  · rw [packedText, String.toList_ofList]
    exact packed.spelled
  · rw [looseText, String.toList_ofList]
    exact .blanks blank.1 blank.2 loose.spelled

/-- The package that both files describe. -/
def cvPackage : Package where
  ident := ⟨"cv"⟩
  version := ⟨1, 0, 2⟩
  methods := [
    { ident := ⟨"blur"⟩
      options := [
        { ident := ⟨"run"⟩
          items := [.node (.input { ident := ⟨"src"⟩ } false)] }] }]

theorem files_describe_cvPackage : SameText packedFile looseFile ∧
    Package.parse packedFile = .ok cvPackage ∧ Package.parse looseFile = .ok cvPackage := by
  have parsed : Package.parse packedFile = .ok cvPackage := by cbv
  exact ⟨sameText_files, parsed, (Package.parse_ok_congr sameText_files cvPackage).mp parsed⟩

end OperatorGen
