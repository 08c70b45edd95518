import OperatorGen.Proofs.Json.Number

/-!
# Members in order, and values within a room

Sorting the members of an object keeps them apart from their order, as long as their names
are distinct (`sortMembers_perm`), and it changes nothing the second time
(`Within.sorted_sorted`). A value that is read from a text nests within the room there, and
its whole numbers are in range (`Within`); sorting keeps that.
-/
namespace OperatorGen.Json.Value

/-! ## Sorting -/

/-- The names of members. -/
def names {β : Type} (members : List (String × β)) : List String :=
  members.map Prod.fst

theorem lookup?_eq_none {name : String} {members : List (String × Value)}
    (absent : name ∉ names members) : lookup? name members = none := by
  induction members with
  | nil => rfl
  | cons member rest ih =>
    obtain ⟨different, others⟩ := not_or.mp (mt List.mem_cons.mpr absent)
    rw [lookup?, if_neg (Ne.symm different), ih others]

theorem exists_lookup?_eq_some {name : String} {members : List (String × Value)}
    (present : name ∈ names members) : ∃ value, lookup? name members = some value := by
  induction members with
  | nil => cases present
  | cons member rest ih =>
    obtain ⟨key, value⟩ := member
    rw [lookup?]
    by_cases same : key = name
    · exact ⟨value, if_pos same⟩
    · rw [if_neg same]
      exact ih ((List.mem_cons.mp present).resolve_left (Ne.symm same))

/-- The names of members increase, so each is there once. -/
def Increasing (members : List (String × Value)) : Prop :=
  members.Pairwise fun first second => first.1 < second.1

theorem mem_insertMember {name : String} {value : Value} {placed : List (String × Value)}
    {member : String × Value} (inserted : member ∈ insertMember name value placed) :
    member = (name, value) ∨ member ∈ placed := by
  induction placed with
  | nil => exact .inl (List.mem_singleton.mp inserted)
  | cons head rest ih =>
    obtain ⟨key, old⟩ := head
    simp only [insertMember] at inserted
    split at inserted
    · exact List.mem_cons.mp inserted
    · split at inserted
      · exact (List.mem_cons.mp inserted).imp_right (List.mem_cons_of_mem _)
      · rcases List.mem_cons.mp inserted with same | later
        · exact .inr (same ▸ List.mem_cons_self)
        · exact (ih later).imp_right (List.mem_cons_of_mem _)

theorem insertMember_increasing {name : String} {value : Value}
    {placed : List (String × Value)} (increasing : Increasing placed) :
    Increasing (insertMember name value placed) := by
  induction placed with
  | nil => exact List.pairwise_singleton _ _
  | cons head rest ih =>
    obtain ⟨key, old⟩ := head
    obtain ⟨above, others⟩ := List.pairwise_cons.mp increasing
    simp only [insertMember]
    split
    · next below =>
      refine List.pairwise_cons.mpr ⟨fun member inside => ?_, increasing⟩
      rcases List.mem_cons.mp inside with rfl | later
      · exact below
      · exact String.lt_trans below (above member later)
    · split
      · next same =>
        subst same
        exact List.pairwise_cons.mpr ⟨above, others⟩
      · next notBelow different =>
        refine List.pairwise_cons.mpr ⟨fun member inside => ?_, ih others⟩
        rcases mem_insertMember inside with rfl | later
        · refine String.not_le.mp fun atMost => different ?_
          exact String.le_antisymm atMost (String.not_lt.mp notBelow)
        · exact above member later

/-- A member with a new name is put among the others. -/
theorem insertMember_perm {name : String} {value : Value} {placed : List (String × Value)}
    (new : name ∉ names placed) :
    (insertMember name value placed).Perm ((name, value) :: placed) := by
  induction placed with
  | nil => exact .refl _
  | cons head rest ih =>
    obtain ⟨key, old⟩ := head
    obtain ⟨different, absent⟩ := not_or.mp (mt List.mem_cons.mpr new)
    simp only [insertMember, if_neg different]
    split
    · exact .refl _
    · exact ((ih absent).cons _).trans (.swap _ _ _)

theorem sortMembers_increasing (members : List (String × Value)) :
    Increasing (sortMembers members) := by
  have placed : ∀ (members placed : List (String × Value)), Increasing placed →
      Increasing (members.foldl (fun placed member => insertMember member.1 member.2 placed)
        placed) := by
    intro members
    induction members with
    | nil => intro placed increasing; exact increasing
    | cons member rest ih =>
      intro placed increasing
      exact ih _ (insertMember_increasing increasing)
  exact placed members [] List.Pairwise.nil

theorem mem_sortMembers {members : List (String × Value)} {member : String × Value}
    (sorted : member ∈ sortMembers members) : member ∈ members := by
  have placed : ∀ (members placed : List (String × Value)),
      member ∈ members.foldl (fun placed member => insertMember member.1 member.2 placed) placed →
        member ∈ placed ∨ member ∈ members := by
    intro members
    induction members with
    | nil => intro placed inside; exact .inl inside
    | cons first rest ih =>
      intro placed inside
      rcases ih _ inside with inserted | later
      · rcases mem_insertMember inserted with rfl | before
        · exact .inr List.mem_cons_self
        · exact .inl before
      · exact .inr (List.mem_cons_of_mem _ later)
  exact (placed members [] sorted).resolve_left List.not_mem_nil

/-- Members with distinct names are only put into another order. -/
theorem sortMembers_perm {members : List (String × Value)} (distinct : (names members).Nodup) :
    (sortMembers members).Perm members := by
  have placed : ∀ (members placed : List (String × Value)),
      (names (placed ++ members)).Nodup →
        (members.foldl (fun placed member => insertMember member.1 member.2 placed) placed).Perm
          (placed ++ members) := by
    intro members
    induction members with
    | nil => intro placed _; rw [List.append_nil]; exact .refl _
    | cons member rest ih =>
      intro placed distinct
      have new : member.1 ∉ names placed := by
        rw [names, List.map_append, List.nodup_append] at distinct
        exact fun inside => distinct.2.2 _ inside _ List.mem_cons_self rfl
      have inserted : (insertMember member.1 member.2 placed).Perm (member :: placed) :=
        insertMember_perm new
      have moved : (insertMember member.1 member.2 placed ++ rest).Perm (placed ++ member :: rest) :=
        (inserted.append_right rest).trans List.perm_middle.symm
      exact (ih _ ((moved.map Prod.fst).nodup_iff.mpr distinct)).trans moved
  exact placed members [] distinct

/-- Increasing members have one order. -/
theorem Increasing.eq_of_perm {members others : List (String × Value)}
    (increasing : Increasing members) (also : Increasing others) (order : members.Perm others) :
    members = others :=
  order.eq_of_pairwise (fun _ _ _ _ below above => absurd above (String.lt_asymm below))
    increasing also

theorem sortMembers_of_increasing {members : List (String × Value)}
    (increasing : Increasing members) : sortMembers members = members := by
  have distinct : (names members).Nodup := by
    rw [names, List.Nodup, List.pairwise_map]
    exact increasing.imp String.ne_of_lt
  exact (sortMembers_increasing members).eq_of_perm increasing (sortMembers_perm distinct)

/-- Members with distinct names are sorted alike, in whatever order they come. -/
theorem sortMembers_congr {members others : List (String × Value)} (order : members.Perm others)
    (distinct : (names members).Nodup) : sortMembers members = sortMembers others := by
  have also : (names others).Nodup := (order.map Prod.fst).nodup_iff.mp distinct
  exact (sortMembers_increasing members).eq_of_perm (sortMembers_increasing others)
    ((sortMembers_perm distinct).trans (order.trans (sortMembers_perm also).symm))

/-! ## Values within a room -/

/-- A value that nests within some room, with numbers of some kind. -/
inductive Within (kind : Number → Prop) : Nat → Value → Prop
  | null {room : Nat} : Within kind room .null
  | boolean {room : Nat} (value : Bool) : Within kind room (.boolean value)
  | number {room : Nat} {value : Number} (fits : kind value) : Within kind room (.number value)
  | text {room : Nat} (value : String) : Within kind room (.text value)
  | list {room : Nat} {elements : List Value}
      (each : ∀ element ∈ elements, Within kind (room + 1) element) :
    Within kind (room + 2) (.list elements)
  | object {room : Nat} {members : List (String × Value)}
      (each : ∀ member ∈ members, Within kind (room + 1) member.2) :
    Within kind (room + 2) (.object members)

namespace Within

variable {kind : Number → Prop} {room : Nat} {value : Value}

/-- A value that nests within a room nests within a larger one. -/
theorem mono (within : Within kind room value) {larger : Nat} (atMost : room ≤ larger) :
    Within kind larger value := by
  induction within generalizing larger with
  | null => exact .null
  | boolean value => exact .boolean value
  | number fits => exact .number fits
  | text value => exact .text value
  | list each ih =>
    obtain ⟨inner, rfl⟩ := Nat.exists_eq_add_of_le' (show 2 ≤ larger by omega)
    exact .list fun element member => ih element member (by omega)
  | object each ih =>
    obtain ⟨inner, rfl⟩ := Nat.exists_eq_add_of_le' (show 2 ≤ larger by omega)
    exact .object fun member inside => ih member inside (by omega)

end Within

theorem sortedList_eq_map (elements : List Value) :
    sortedList elements = elements.map sorted := by
  induction elements with
  | nil => rfl
  | cons element rest ih => rw [sortedList, ih, List.map_cons]

theorem sortedMembers_eq_map (members : List (String × Value)) :
    sortedMembers members = members.map fun member => (member.1, member.2.sorted) := by
  induction members with
  | nil => rfl
  | cons member rest ih => rw [sortedMembers, ih, List.map_cons]

theorem sorted_list (elements : List Value) :
    sorted (.list elements) = .list (elements.map sorted) := by
  rw [sorted, sortedList_eq_map]

theorem sorted_object (members : List (String × Value)) :
    sorted (.object members) =
      .object (sortMembers (members.map fun member => (member.1, member.2.sorted))) := by
  rw [sorted, sortedMembers_eq_map]

namespace Within

variable {kind : Number → Prop} {room : Nat} {value : Value}

/-- Sorting keeps a value within its room. -/
theorem sorted (within : Within kind room value) : Within kind room value.sorted := by
  induction within with
  | null => exact .null
  | boolean value => exact .boolean value
  | number fits => exact .number fits
  | text value => exact .text value
  | list each ih =>
    rw [sorted_list]
    refine .list fun element member => ?_
    obtain ⟨original, inside, rfl⟩ := List.mem_map.mp member
    exact ih original inside
  | object each ih =>
    rw [sorted_object]
    refine .object fun member inside => ?_
    obtain ⟨original, among, rfl⟩ := List.mem_map.mp (mem_sortMembers inside)
    exact ih original among

/-- A sorted value is sorted already. -/
theorem sorted_sorted (within : Within kind room value) : value.sorted.sorted = value.sorted := by
  induction within with
  | null => rfl
  | boolean value => rfl
  | number fits => rfl
  | text value => rfl
  | list each ih =>
    rw [sorted_list, sorted_list, List.map_map]
    exact congrArg Value.list (List.map_congr_left ih)
  | @object _ members each ih =>
    have same : ∀ member ∈ sortMembers (members.map fun member => (member.1, member.2.sorted)),
        (member.1, member.2.sorted) = member := by
      intro member inside
      obtain ⟨original, among, rfl⟩ := List.mem_map.mp (mem_sortMembers inside)
      rw [ih original among]
    rw [sorted_object, sorted_object, List.map_congr_left same, List.map_id',
      sortMembers_of_increasing (sortMembers_increasing _)]

end Within

/-! ## Whole numbers -/

mutual

/-- Whether all numbers in a value are whole numbers. -/
def isWhole : Value → Bool
  | number (.real _ _) => false
  | list elements => isWholeList elements
  | object members => isWholeMembers members
  | _ => true

/-- Whether all numbers in values are whole numbers. -/
def isWholeList : List Value → Bool
  | [] => true
  | element :: rest => isWhole element && isWholeList rest

/-- Whether all numbers in the values of members are whole numbers. -/
def isWholeMembers : List (String × Value) → Bool
  | [] => true
  | (_, value) :: rest => isWhole value && isWholeMembers rest

end

theorem isWholeList_eq_all (elements : List Value) :
    isWholeList elements = elements.all isWhole := by
  induction elements with
  | nil => rfl
  | cons element rest ih => rw [isWholeList, ih, List.all_cons]

theorem isWholeMembers_eq_all (members : List (String × Value)) :
    isWholeMembers members = members.all fun member => isWhole member.2 := by
  induction members with
  | nil => rfl
  | cons member rest ih => rw [isWholeMembers, ih, List.all_cons]

/-- Numbers that are whole and in range are words. -/
theorem Within.words {room : Nat} {value : Value} (within : Within Number.InRange room value)
    (whole : value.isWhole = true) : Within Number.IsWord room value := by
  induction within with
  | null => exact .null
  | boolean value => exact .boolean value
  | @number _ n fits =>
    cases n with
    | integer value => exact .number ⟨value, rfl, fits⟩
    | real negative units => cases whole
  | text value => exact .text value
  | list each ih =>
    rw [isWhole, isWholeList_eq_all, List.all_eq_true] at whole
    exact .list fun element member => ih element member (whole element member)
  | object each ih =>
    rw [isWhole, isWholeMembers_eq_all, List.all_eq_true] at whole
    exact .object fun member inside => ih member inside (whole member inside)

end OperatorGen.Json.Value
