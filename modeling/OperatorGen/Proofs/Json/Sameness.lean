import OperatorGen.Proofs.Json.Datum
import OperatorGen.Proofs.Json.Value
import OperatorGen.Proofs.Success
import Mathlib.Data.List.Nodup

/-!
# Reading the same value

Two ways to write one string denote the same text, or none. Two data that are the same value
without repeated names are read as values that sort to the same one, or not at all.
-/
namespace OperatorGen.Json

open Text (Part)

namespace Datum

/-! ## Strings -/

/-- A string denotes a text exactly if its units encode it. -/
theorem textOf_ok_iff {parts : List Part} {s : String} :
    textOf parts = .ok s ↔ Text.units parts = s.toList.flatMap Text.encode := by
  rw [← Text.read_ok_iff, textOf, Token.decoded, map_ok_iff]
  constructor
  · rintro ⟨chars, denoted, rfl⟩
    rw [String.toList_ofList]
    exact denoted
  · exact fun denoted => ⟨_, denoted, String.ofList_toList⟩

theorem textOf_congr {parts others : List Part} (units : Text.units parts = Text.units others) :
    (textOf parts).toOption = (textOf others).toOption := by
  simp only [toOption_eq_iff, textOf_ok_iff, units, implies_true]

/-- Members that are written with the same units have the same names. -/
theorem names_congr {pairs : List ((List Part × Datum) × (List Part × Datum))}
    (units : ∀ pair ∈ pairs, Text.units pair.1.1 = Text.units pair.2.1) :
    names (pairs.map Prod.fst) = names (pairs.map Prod.snd) := by
  rw [names, names, List.map_map, List.map_map]
  exact List.map_congr_left units

/-! ## Values -/

/-- The value of a datum in a text, sorted. -/
def readSorted (room : Nat) (datum : Datum) : Except Fault Value :=
  (datum.tree.value room).map Value.sorted

/-- The name and the sorted value of a member. -/
def readMember (room : Nat) (member : List Part × Datum) : Except Fault (String × Value) := do
  let name ← textOf member.1
  (readSorted room member.2).map fun value => (name, value)

theorem valueList_sorted (room : Nat) (elements : List Datum) :
    (Tree.valueList room (elements.map tree)).map (List.map Value.sorted) =
      elements.mapM (readSorted room) := by
  induction elements with
  | nil => rfl
  | cons element rest ih =>
    rw [List.mapM_cons, ← ih, List.map_cons, Tree.valueList, readSorted]
    cases element.tree.value room with
    | error fault => rfl
    | ok value => cases Tree.valueList room (rest.map tree) <;> rfl

theorem valueMembers_sorted (room : Nat) (members : List (List Part × Datum)) :
    (Tree.valueMembers room (members.map memberTree)).map
        (List.map fun member => (member.1, member.2.sorted)) =
      members.mapM (readMember room) := by
  induction members with
  | nil => rfl
  | cons member rest ih =>
    rw [List.mapM_cons, ← ih, List.map_cons, memberTree, Tree.valueMembers, readMember, readSorted]
    cases textOf member.1 with
    | error fault => rfl
    | ok name =>
      cases member.2.tree.value room with
      | error fault => rfl
      | ok value => cases Tree.valueMembers room (rest.map memberTree) <;> rfl

theorem readSorted_list (room : Nat) (elements : List Datum) :
    readSorted room (.list elements) =
      Tree.enter room >>= fun inner => (elements.mapM (readSorted inner)).map .list := by
  rw [readSorted, tree_list, Tree.value]
  cases Tree.enter room with
  | error fault => rfl
  | ok inner =>
    simp only [bind, Except.bind, ← valueList_sorted]
    cases Tree.valueList inner (elements.map tree) with
    | error fault => rfl
    | ok values => exact congrArg Except.ok (Value.sorted_list values)

theorem readSorted_object (room : Nat) (members : List (List Part × Datum)) :
    readSorted room (.object members) =
      Tree.enter room >>= fun inner =>
        (members.mapM (readMember inner)).map fun values => .object (Value.sortMembers values) := by
  rw [readSorted, tree_object, Tree.value]
  cases Tree.enter room with
  | error fault => rfl
  | ok inner =>
    simp only [bind, Except.bind, ← valueMembers_sorted]
    cases Tree.valueMembers inner (members.map memberTree) with
    | error fault => rfl
    | ok values => exact congrArg Except.ok (Value.sorted_object values)

/-- The names of members that are read are encoded as they are written. -/
theorem encoded_names_of_readMember {room : Nat} {members : List (List Part × Datum)}
    {values : List (String × Value)} (read : members.mapM (readMember room) = .ok values) :
    (Value.names values).map (fun name => name.toList.flatMap Text.encode) = names members := by
  rw [mapM_ok_iff] at read
  induction read with
  | nil => rfl
  | cons first _ ih =>
    obtain ⟨name, denoted, found⟩ := bind_ok_iff.mp first
    obtain ⟨value, -, rfl⟩ := map_ok_iff.mp found
    rw [names, Value.names, List.map_cons, List.map_cons, List.map_cons, ← textOf_ok_iff.mp denoted]
    exact congrArg _ ih

/-- The names of members that are read are distinct if they are written so. -/
theorem nodup_of_readMember {room : Nat} {members : List (List Part × Datum)}
    {values : List (String × Value)} (once : (names members).Nodup)
    (read : members.mapM (readMember room) = .ok values) : (Value.names values).Nodup := by
  rw [← encoded_names_of_readMember read] at once
  exact List.Nodup.of_map _ once

/-- Members in another order are read as the same object. -/
theorem readMembers_perm {room : Nat} {members others : List (List Part × Datum)}
    (order : members.Perm others) (once : (names members).Nodup) :
    (members.mapM (readMember room)).toOption.map Value.sortMembers =
      (others.mapM (readMember room)).toOption.map Value.sortMembers := by
  rcases ok_or_error (members.mapM (readMember room)) with ⟨values, done⟩ | ⟨fault, failed⟩
  · obtain ⟨changed, also, permuted⟩ := mapM_perm order done
    rw [done, also, toOption_ok, toOption_ok, Option.map_some, Option.map_some,
      Value.sortMembers_congr permuted.symm (nodup_of_readMember once done)]
  · rcases ok_or_error (others.mapM (readMember room)) with ⟨values, done⟩ | ⟨other, also⟩
    · obtain ⟨changed, also, -⟩ := mapM_perm order.symm done
      rw [failed] at also
      cases also
    · rw [failed, also]
      rfl

/-- Data that are the same value are read as values that sort to the same one. -/
theorem Same.readSorted {first second : Datum} (same : first.Same second)
    (distinct : first.Distinct) (room : Nat) :
    (first.readSorted room).toOption = (second.readSorted room).toOption := by
  induction same generalizing room with
  | null => rfl
  | boolean value => rfl
  | number numeral => rfl
  | @text parts others units =>
    simp only [Datum.readSorted, tree, Tree.value, toOption_map, textOf_congr units]
  | @list pairs each ih =>
    cases distinct with
    | list distinct =>
      have alike : ∀ inner, ((pairs.map Prod.fst).mapM (Datum.readSorted inner)).toOption =
          ((pairs.map Prod.snd).mapM (Datum.readSorted inner)).toOption := by
        intro inner
        rw [List.mapM_map, List.mapM_map]
        exact toOption_mapM_congr fun pair among =>
          ih pair among (distinct _ (List.mem_map_of_mem among)) inner
      simp only [readSorted_list, toOption_bind, toOption_map, alike]
  | @object pairs members units each order ih =>
    cases distinct with
    | object once distinct =>
      -- The members agree one by one first; then sorting forgets the order of the second ones.
      have alike : ∀ inner, ((pairs.map Prod.fst).mapM (readMember inner)).toOption =
          ((pairs.map Prod.snd).mapM (readMember inner)).toOption := by
        intro inner
        rw [List.mapM_map, List.mapM_map]
        refine toOption_mapM_congr fun pair among => ?_
        simp only [Function.comp_apply, readMember, toOption_bind, toOption_map,
          textOf_congr (units pair among),
          ih pair among (distinct _ (List.mem_map_of_mem among)) inner]
      have sorted : ∀ inner, ((pairs.map Prod.fst).mapM (readMember inner)).toOption.map
          Value.sortMembers = (members.mapM (readMember inner)).toOption.map Value.sortMembers := by
        intro inner
        rw [alike]
        exact readMembers_perm order (names_congr units ▸ once)
      simp only [readSorted_object, toOption_bind, toOption_map]
      refine congrArg _ (funext fun inner => ?_)
      have wrapped := congrArg (Option.map Value.object) (sorted inner)
      rwa [Option.map_map, Option.map_map] at wrapped

end Datum
end OperatorGen.Json
