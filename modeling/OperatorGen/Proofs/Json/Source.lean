import OperatorGen.Json.Decoder
import OperatorGen.Proofs.Json.Written
import Mathlib.Data.List.Forall2

/-!
# Sources that show a value

A value that is at hand, and the tree of its text, show the same value (`Source.Shows`). A
decoder that gives one result wherever a value is shown decodes it (`Decoder.Decodes`), so
what is decoded from a written text does not depend on how the decoder came to it.
-/
namespace OperatorGen.Json

open Value (Within)

namespace Source

/-- A source shows a value: it is the value, or a place in a text where it is written. -/
inductive Shows : Source → Value → Prop
  | value (v : Value) : Shows (.value v) v
  | text {room : Nat} {v : Value} (within : Within Number.IsWord room v) :
    Shows (.text room (.ofValue v)) v

/-- Sources show members with the same names. -/
def ShowMembers (sources : List (String × Source)) (members : List (String × Value)) : Prop :=
  List.Forall₂ (fun source member => source.1 = member.1 ∧ source.2.Shows member.2) sources members

/-- Sources as they stand in an opened object. -/
def named (sources : List (String × Source)) : List (Except Fault String × Source) :=
  sources.map fun source => (.ok source.1, source.2)

theorem Shows.found {source : Source} {v : Value} (shows : source.Shows v) :
    source.found = .ok v.found := by
  cases shows with
  | value => rfl
  | text within => cases v <;> rfl

theorem Shows.read {source : Source} {v : Value} (shows : source.Shows v) :
    source.read = .ok v := by
  cases shows with
  | value => rfl
  | text within => rw [Source.read, Tree.value_ofValue within]; rfl

theorem Shows.skip {source : Source} {v : Value} (shows : source.Shows v) :
    source.skip = .ok () := by
  cases shows with
  | value => rfl
  | text within => rw [Source.skip, (Tree.closed_ofValue within).skip]; rfl

/-- Inside of a list, the sources show its elements. -/
theorem Shows.openedList {source : Source} {elements : List Value}
    (shows : source.Shows (.list elements)) (wanted : Wanted) :
    ∃ sources, source.openedList wanted = .ok (sources, .closed) ∧
      List.Forall₂ Shows sources elements := by
  cases shows with
  | value =>
    refine ⟨elements.map .value, rfl, ?_⟩
    rw [List.forall₂_map_left_iff, List.forall₂_same]
    exact fun v _ => .value v
  | text within =>
    cases within with
    | @list room _ each =>
      refine ⟨(Tree.ofList elements).map (.text (room + 1)), ?_, ?_⟩
      · rw [Tree.ofValue, Source.openedList, Tree.enter_succ]
        rfl
      · rw [Tree.ofList_eq_map, List.map_map, List.forall₂_map_left_iff, List.forall₂_same]
        exact fun v member => .text (each v member)

/-- Members that are at hand show themselves. -/
theorem showMembers_values (members : List (String × Value)) :
    ShowMembers (members.map fun member => (member.1, .value member.2)) members := by
  rw [ShowMembers, List.forall₂_map_left_iff, List.forall₂_same]
  exact fun member _ => ⟨rfl, .value member.2⟩

/-- Inside of an object, the sources show its members. -/
theorem Shows.openedObject {source : Source} {members : List (String × Value)}
    (shows : source.Shows (.object members)) (wanted : Wanted) :
    ∃ sources, source.openedObject wanted = .ok (named sources, .closed) ∧
      ShowMembers sources members := by
  cases shows with
  | value =>
    refine ⟨members.map fun member => (member.1, .value member.2), ?_, showMembers_values members⟩
    rw [named, List.map_map]
    rfl
  | text within =>
    cases within with
    | @object room _ each =>
      refine ⟨members.map fun member => (member.1, .text (room + 1) (.ofValue member.2)), ?_, ?_⟩
      · rw [Tree.ofValue, Source.openedObject, Tree.enter_succ, Tree.ofMembers_eq_map, named,
          List.map_map]
        simp only [bind, Except.bind, ofFault, Except.mapError, List.map_map]
        rfl
      · rw [ShowMembers, List.forall₂_map_left_iff, List.forall₂_same]
        exact fun member inside => ⟨rfl, .text (each member inside)⟩

/-- An object is opened as one. -/
theorem Shows.opened {source : Source} {members : List (String × Value)}
    (shows : source.Shows (.object members)) (wanted : Wanted) :
    ∃ sources, source.opened wanted = .ok (.object (named sources) .closed) ∧
      ShowMembers sources members := by
  obtain ⟨sources, opened, shown⟩ := shows.openedObject wanted
  refine ⟨sources, ?_, shown⟩
  cases shows with
  | value =>
    rw [Source.opened, opened]
    · rfl
    all_goals exact nofun
  | text within =>
    rw [Source.opened, opened]
    · rfl
    all_goals exact nofun

end Source

/-! ## Decoders -/

/-- The result of a decoder wherever a value is shown. -/
def Decodes {α : Type} (decoder : Decoder α) (v : Value) (a : α) : Prop :=
  ∀ source : Source, source.Shows v → decoder source = .ok a

namespace Decodes

theorem text (s : String) : Decodes Decoder.text (.text s) s := by
  intro source shows
  rw [Decoder.text, shows.found]
  rfl

theorem boolean (b : Bool) : Decodes Decoder.boolean (.boolean b) b := by
  intro source shows
  rw [Decoder.boolean, shows.found]
  rfl

theorem value (v : Value) : Decodes Decoder.value v v.sorted := by
  intro source shows
  rw [Decoder.value, shows.read]
  rfl

theorem variant {α : Type} {known : List (String × α)} {name : String} {a : α}
    (named : Decoder.named known name = .ok a) : Decodes (Decoder.variant known) (.text name) a := by
  intro source shows
  rw [Decoder.variant, shows.found]
  exact named

theorem map {α β : Type} {decoder : Decoder α} {v : Value} {a : α} (decodes : Decodes decoder v a)
    (build : α → β) : Decodes (fun source => (decoder source).map build) v (build a) := by
  intro source shows
  exact map_ok_iff.mpr ⟨a, decodes source shows, rfl⟩

theorem readAll {α : Type} {element : Decoder α} {sources : List Source} {elements : List Value}
    {results : List α} (shown : List.Forall₂ Source.Shows sources elements)
    (each : List.Forall₂ (Decodes element) elements results) :
    Decoder.readAll element sources = .ok results := by
  induction shown generalizing results with
  | nil => cases each; rfl
  | cons first _ ih =>
    cases each with
    | cons decodes others =>
      rw [Decoder.readAll, decodes _ first, ih others]
      rfl

/-- A list is decoded element by element. -/
theorem list {α : Type} {element : Decoder α} {elements : List Value} {results : List α}
    (each : List.Forall₂ (Decodes element) elements results) :
    Decodes (Decoder.list element) (.list elements) results := by
  intro source shows
  obtain ⟨sources, opened, shown⟩ := shows.openedList .list
  rw [Decoder.list, opened]
  simp only [bind, Except.bind, readAll shown each]
  rfl

end Decodes

end OperatorGen.Json
