import OperatorGen.Proofs.Json.Agreement
import OperatorGen.Proofs.Json.Reading
import OperatorGen.Proofs.Json.Sorted

/-!
# Decoding a text by its value

A decoder buffers if it gives for a datum in a text what it gives for the value that is read
from there (`Decoder.Buffers`). A value that is decoded by its tag buffers as soon as the tag
does: all else is read as a value before it is decoded, so the room in the text is the same.
-/
namespace OperatorGen.Json

open Datum (source memberSource memberTree)
open Text (Part)

variable {α κ : Type}

namespace Datum

/-! ## Values that are read -/

/-- Some member has a name, however it is written. -/
def HasMember (name : String) (members : List (List Part × Datum)) : Prop :=
  name.toList.flatMap Text.encode ∈ names members

instance (name : String) (members : List (List Part × Datum)) :
    Decidable (HasMember name members) :=
  inferInstanceAs (Decidable (name.toList.flatMap Text.encode ∈ names members))

variable {room : Nat} {members : List (List Part × Datum)} {values : List (String × Value)}

theorem encoded_names (read : Tree.valueMembers room (members.map memberTree) = .ok values) :
    (Value.names values).map (fun name => name.toList.flatMap Text.encode) = names members := by
  have sorted := valueMembers_sorted room members
  rw [read] at sorted
  rw [← encoded_names_of_readMember sorted.symm, Value.names_map_sorted]

theorem mem_names_iff (read : Tree.valueMembers room (members.map memberTree) = .ok values)
    {name : String} : name ∈ Value.names values ↔ HasMember name members := by
  rw [HasMember, ← encoded_names read, List.mem_map]
  constructor
  · exact fun inside => ⟨name, inside, rfl⟩
  · rintro ⟨other, inside, same⟩
    have written := List.mem_map_of_mem (f := fun name => name.toList.flatMap Text.encode) inside
    rw [encoded_names read] at written
    obtain ⟨member, -, units⟩ := List.mem_map.mp written
    -- The name of this member denotes one text.
    have one := textOf_ok_iff.mpr units
    rw [textOf_ok_iff.mpr (units.trans same)] at one
    cases one
    exact inside

/-- An object is read as an object, with a value for every member. -/
theorem value_object_ok {v : Value} (read : (object members).tree.value room = .ok v) :
    ∃ inner values, Tree.valueMembers inner (members.map memberTree) = .ok values ∧
      v = .object values := by
  rw [tree_object, Tree.value] at read
  obtain ⟨inner, -, read⟩ := bind_ok_iff.mp read
  obtain ⟨values, found, same⟩ := bind_ok_iff.mp read
  cases same
  exact ⟨inner, values, found, rfl⟩

/-- A value has no repeated names if it is written without any. -/
theorem Distinct.value {datum : Datum} (distinct : datum.Distinct) {v : Value}
    (read : datum.tree.value room = .ok v) : v.Distinct := by
  induction distinct generalizing room v with
  | null => cases read; exact .null
  | boolean value => cases read; exact .boolean value
  | number numeral =>
    obtain ⟨value, -, rfl⟩ := map_ok_iff.mp read
    exact .number value
  | text parts =>
    obtain ⟨value, -, rfl⟩ := map_ok_iff.mp read
    exact .text value
  | @list elements each ih =>
    rw [tree_list, Tree.value] at read
    obtain ⟨inner, -, read⟩ := bind_ok_iff.mp read
    obtain ⟨values, found, same⟩ := bind_ok_iff.mp read
    cases same
    refine .list fun value among => ?_
    obtain ⟨tree, inside, denoted⟩ := Tree.mem_of_valueList found among
    obtain ⟨element, written, rfl⟩ := List.mem_map.mp inside
    exact ih element written denoted
  | @object members once each ih =>
    obtain ⟨inner, values, found, rfl⟩ := value_object_ok read
    refine .object ?_ fun member among => ?_
    · rw [← encoded_names found] at once
      exact List.Nodup.of_map _ once
    · obtain ⟨tree, inside, denoted⟩ := Tree.mem_of_valueMembers found among
      obtain ⟨member, written, rfl⟩ := List.mem_map.mp inside
      exact ih member written denoted

end Datum

/-! ## Decoders that buffer -/

/-- A decoder gives for a datum what it gives for its value. -/
def Decoder.Buffers (decoder : Decoder α) : Prop :=
  ∀ (room : Nat) (datum : Datum), (decoder (datum.source room)).toOption =
    (datum.tree.value room).toOption.bind fun v => (decoder (.value v)).toOption

namespace Datum

theorem toOption_value_list (room : Nat) (elements : List Datum) :
    ((list elements).tree.value room).toOption =
      (Tree.enter room).toOption.bind fun inner =>
        (Tree.valueList inner (elements.map tree)).toOption.map .list := by
  rw [tree_list, Tree.value]
  cases Tree.enter room with
  | error fault => rfl
  | ok inner =>
    rw [toOption_ok, Option.bind_some]
    simp only [bind, Except.bind]
    cases Tree.valueList inner (elements.map tree) <;> rfl

theorem toOption_value_object (room : Nat) (members : List (List Part × Datum)) :
    ((object members).tree.value room).toOption =
      (Tree.enter room).toOption.bind fun inner =>
        (Tree.valueMembers inner (members.map memberTree)).toOption.map .object := by
  rw [tree_object, Tree.value]
  cases Tree.enter room with
  | error fault => rfl
  | ok inner =>
    rw [toOption_ok, Option.bind_some]
    simp only [bind, Except.bind]
    cases Tree.valueMembers inner (members.map memberTree) <;> rfl

theorem toOption_read (room : Nat) (datum : Datum) :
    (datum.source room).read.toOption = (datum.tree.value room).toOption := by
  rw [source, Source.read, ofFault, toOption_mapError]

end Datum

namespace Decoder

/-- A name out of several is a text, which is read alike. -/
theorem buffers_variant (known : List (String × α)) : (variant known).Buffers := by
  intro room datum
  cases datum with
  | null => rfl
  | boolean value => rfl
  | number numeral =>
    simp only [source, Datum.tree, variant, Source.found, Tree.found, Tree.value]
    cases numeral.number <;> rfl
  | text parts =>
    simp only [source, Datum.tree, variant, Source.found, Tree.found, Tree.value]
    cases Datum.textOf parts <;> rfl
  | list elements =>
    rw [Datum.toOption_value_list, source, Datum.tree_list]
    cases Tree.enter room with
    | error fault => rfl
    | ok inner =>
      rw [toOption_ok, Option.bind_some]
      cases Tree.valueList inner (elements.map Datum.tree) <;> rfl
  | object members =>
    rw [Datum.toOption_value_object, source, Datum.tree_object]
    cases Tree.enter room with
    | error fault => rfl
    | ok inner =>
      rw [toOption_ok, Option.bind_some]
      cases Tree.valueMembers inner (members.map memberTree) <;> rfl

theorem Buffers.bind {β : Type} {decoder : Decoder α} (buffers : decoder.Buffers)
    (next : α → Except DecodeError β) : Decoder.Buffers fun source => decoder source >>= next := by
  intro room datum
  simp only [toOption_bind, buffers room datum, Option.bind_assoc]

end Decoder

namespace Fields

variable {tag : String} {readTag : Decoder κ}

/-- The members of an object are buffered: the tag is read from a value, as are the others. -/
theorem readTagged_source (buffers : readTag.Buffers) (room : Nat)
    (members : List (List Part × Datum)) (seen : Option κ) :
    (readTagged tag readTag (members.map (memberSource room)) seen).toOption =
      (Tree.valueMembers room (members.map memberTree)).toOption.bind fun values =>
        (readTagged tag readTag (values.map fun member => (.ok member.1, .value member.2))
          seen).toOption := by
  induction members generalizing seen with
  | nil => rfl
  | cons member rest ih =>
    rw [List.map_cons, List.map_cons, memberSource, memberTree, Tree.valueMembers]
    cases Datum.textOf member.1 with
    | error fault => cases seen <;> rfl
    | ok name =>
      have value := Datum.toOption_read room member.2
      simp only [toOption_bind, toOption_ok, Option.bind_some, Option.bind_assoc, List.map_cons]
      by_cases here : name = tag
      · subst here
        cases seen with
        | some kind => simp [readTagged_cons_again]
        | none =>
          simp only [readTagged_cons_tag, toOption_bind, buffers room member.2, ih,
            Option.bind_assoc]
          exact congrArg _ (funext fun v => Option.bind_comm _ _)
      · simp only [readTagged_cons_other _ _ _ _ here, toOption_bind, value, ih, Option.bind_assoc]
        rfl

theorem readAll_source (room : Nat) (elements : List Datum) :
    (Decoder.readAll Source.read (elements.map (source room))).toOption =
      (Tree.valueList room (elements.map Datum.tree)).toOption := by
  induction elements with
  | nil => rfl
  | cons element rest ih =>
    simp only [List.map_cons, Decoder.readAll, Tree.valueList, toOption_bind, Datum.toOption_read, ih,
      toOption_ok]

/-- A value that is decoded by its tag buffers if the tag does. -/
theorem buffers_tagged (buffers : readTag.Buffers) (name : String) :
    (tagged name tag readTag).Buffers := by
  intro room datum
  cases datum with
  | object members =>
    have opened := opened_object room members (.tagged name)
    rw [Datum.toOption_value_object]
    cases entered : Tree.enter room with
    | error fault =>
      rw [entered] at opened
      exact toOption_tagged_error opened
    | ok inner =>
      rw [entered] at opened
      simp only [toOption_tagged_object opened, readTagged_source buffers, toOption_ok,
        Option.bind_some, Option.bind_map, Option.bind_assoc, Function.comp_def]
      exact congrArg _ (funext fun values => (toOption_tagged_object rfl).symm)
  | list elements =>
    have opened := opened_list room elements (.tagged name)
    rw [Datum.toOption_value_list]
    cases entered : Tree.enter room with
    | error fault =>
      rw [entered] at opened
      exact toOption_tagged_error opened
    | ok inner =>
      rw [entered] at opened
      cases elements with
      | nil => exact toOption_tagged_nil opened
      | cons first rest =>
        have parts : ((Datum.list (first :: rest)).source room).opened (.tagged name) =
            .ok (.list (first.source inner :: rest.map (source inner)) .closed) := opened
        simp only [toOption_tagged_list parts, readAll_source, buffers inner first, List.map_cons,
          Tree.valueList, toOption_bind, toOption_ok, Option.bind_some, Option.bind_map,
          Option.bind_assoc, Option.map_bind, Function.comp_def, tagged_list_value]
        refine congrArg _ (funext fun v => ?_)
        cases readTag (.value v) <;> cases Tree.valueList inner (rest.map Datum.tree) <;> rfl
  | null => rfl
  | boolean value => rfl
  | number numeral =>
    rw [source, Datum.tree, Tree.value]
    cases numeral.number <;> rfl
  | text parts =>
    rw [source, Datum.tree, Tree.value]
    cases Datum.textOf parts <;> rfl

end Fields
end OperatorGen.Json
