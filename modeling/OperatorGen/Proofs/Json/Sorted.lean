import OperatorGen.Proofs.Json.Related
import OperatorGen.Proofs.Json.Value

/-!
# Decoding sorted values

Sorting a value without repeated names changes the order of members and nothing else, at any
depth. Decoders that look at members by their names do not notice (`Decoder.Agrees Sorts`): a
record of fields that agree does so, and so does a record with a part that agrees on its own
members (`PartAgrees`), or a value that is decoded by its tag.
-/
namespace OperatorGen.Json

namespace Value

/-- No object in a value has two members with the same name. -/
inductive Distinct : Value → Prop
  | null : Distinct .null
  | boolean (value : Bool) : Distinct (.boolean value)
  | number (value : Number) : Distinct (.number value)
  | text (value : String) : Distinct (.text value)
  | list {elements : List Value} (each : ∀ element ∈ elements, Distinct element) :
    Distinct (.list elements)
  | object {members : List (String × Value)} (once : (names members).Nodup)
      (each : ∀ member ∈ members, Distinct member.2) : Distinct (.object members)

theorem found_sorted (v : Value) : v.sorted.found = v.found := by
  cases v with
  | list elements => rw [sorted_list]; rfl
  | object members => rw [sorted_object]; rfl
  | _ => rfl

/-- The members of a sorted object: their values are sorted, and they stand in order. -/
def arranged (members : List (String × Value)) : List (String × Value) :=
  sortMembers (members.map fun member => (member.1, member.2.sorted))

theorem names_map_sorted (members : List (String × Value)) :
    names (members.map fun member => (member.1, member.2.sorted)) = names members := by
  rw [names, List.map_map]
  rfl

theorem arranged_perm {members : List (String × Value)} (once : (names members).Nodup) :
    (arranged members).Perm (members.map fun member => (member.1, member.2.sorted)) :=
  sortMembers_perm (by rwa [names_map_sorted])

theorem length_arranged {members : List (String × Value)} (once : (names members).Nodup) :
    (arranged members).length = members.length := by
  rw [(arranged_perm once).length_eq, List.length_map]

theorem names_arranged_perm {members : List (String × Value)} (once : (names members).Nodup) :
    (names (arranged members)).Perm (names members) := by
  rw [← names_map_sorted members]
  exact (arranged_perm once).map Prod.fst

theorem lookup?_eq_some_iff {name : String} {v : Value} {members : List (String × Value)}
    (once : (names members).Nodup) : lookup? name members = some v ↔ (name, v) ∈ members := by
  induction members with
  | nil => simp [lookup?]
  | cons member rest ih =>
    obtain ⟨key, value⟩ := member
    obtain ⟨absent, later⟩ := List.nodup_cons.mp once
    rw [lookup?, List.mem_cons, Prod.mk.injEq]
    by_cases here : key = name
    · subst here
      have elsewhere : (key, v) ∉ rest := fun inside =>
        absent (List.mem_map.mpr ⟨_, inside, rfl⟩)
      simp [elsewhere, eq_comm]
    · simp [here, Ne.symm here, ih later]

/-- A member is found under its name, and its value is sorted. -/
theorem lookup?_arranged {members : List (String × Value)} (once : (names members).Nodup)
    (name : String) :
    lookup? name (arranged members) = (lookup? name members).map sorted := by
  have onceMore := (names_arranged_perm once).nodup_iff.mpr once
  ext v
  rw [lookup?_eq_some_iff onceMore, (arranged_perm once).mem_iff, List.mem_map,
    Option.map_eq_some_iff]
  constructor
  · rintro ⟨⟨key, value⟩, inside, same⟩
    cases same
    exact ⟨value, (lookup?_eq_some_iff once).mpr inside, rfl⟩
  · rintro ⟨value, found, rfl⟩
    exact ⟨(name, value), (lookup?_eq_some_iff once).mp found, rfl⟩

/-- Sorting a name in does not hide a name. -/
theorem mem_names_insertMember {name other : String} {value : Value}
    {placed : List (String × Value)} :
    other ∈ names (insertMember name value placed) ↔ other = name ∨ other ∈ names placed := by
  induction placed with
  | nil => simp [insertMember, names]
  | cons head rest ih =>
    obtain ⟨key, old⟩ := head
    simp only [insertMember]
    split
    · simp [names]
    · split
      · next same => simp [names, same]
      · simp only [names, List.map_cons, List.mem_cons] at ih ⊢
        rw [ih]
        tauto

/-- Members keep their names when they are sorted, also if some come twice. -/
theorem mem_names_arranged {name : String} {members : List (String × Value)} :
    name ∈ names (arranged members) ↔ name ∈ names members := by
  have placed : ∀ members placed : List (String × Value),
      name ∈ names (members.foldl
          (fun placed member => insertMember member.1 member.2 placed) placed) ↔
        name ∈ names placed ∨ name ∈ names members := by
    intro members
    induction members with
    | nil => simp [names]
    | cons member rest ih =>
      intro placed
      rw [List.foldl_cons, ih, mem_names_insertMember]
      simp only [names, List.map_cons, List.mem_cons]
      tauto
  rw [arranged, sortMembers, placed, names_map_sorted]
  simp [names]

/-- What is left of the members is left of them when they are sorted. -/
theorem others_arranged {members : List (String × Value)} (once : (names members).Nodup)
    (known : List String) :
    Fields.others known (arranged members) = arranged (Fields.others known members) := by
  have fewer : (names (Fields.others known members)).Nodup :=
    once.sublist (List.filter_sublist.map Prod.fst)
  have increasing : Increasing (Fields.others known (arranged members)) :=
    (sortMembers_increasing _).sublist List.filter_sublist
  have kept : Fields.others known (members.map fun member => (member.1, member.2.sorted)) =
      (Fields.others known members).map fun member => (member.1, member.2.sorted) := by
    rw [Fields.others, List.filter_map]
    rfl
  refine increasing.eq_of_perm (sortMembers_increasing _) ?_
  refine ((arranged_perm once).filter _).trans ?_
  rw [← Fields.others, kept]
  exact (arranged_perm fewer).symm

theorem Distinct.others {members : List (String × Value)} (distinct : Distinct (.object members))
    (known : List String) : Distinct (.object (Fields.others known members)) := by
  cases distinct with
  | object once each =>
    exact .object (once.sublist (List.filter_sublist.map Prod.fst))
      fun member inside => each member (List.mem_of_mem_filter inside)

end Value

open Value (Distinct arranged names)
open Source (named showMembers_values)

variable {α β : Type}

/-- A value without repeated names, and the same sorted. -/
inductive Sorts : Source → Source → Prop
  | intro {v : Value} (distinct : v.Distinct) : Sorts (.value v) (.value v.sorted)

/-! ## Decoders -/

namespace Decoder

theorem agrees_found : Decoder.Agrees Source.found Sorts := by
  rintro _ _ ⟨distinct⟩
  rw [Source.found, Source.found, Value.found_sorted]

theorem agrees_text : text.Agrees Sorts :=
  agrees_found.bind _

theorem agrees_optionalText : optionalText.Agrees Sorts :=
  agrees_found.bind _

theorem agrees_boolean : boolean.Agrees Sorts :=
  agrees_found.bind _

theorem agrees_variant (known : List (String × α)) : (variant known).Agrees Sorts :=
  agrees_found.bind _

theorem toOption_list_value (element : Decoder α) (elements : List Value) :
    (list element (.value (.list elements))).toOption =
      ((elements.map Source.value).mapM element).toOption := by
  rw [list, Source.openedList, ← readAll_eq_mapM]
  simp only [bind, Except.bind]
  cases readAll element (elements.map Source.value) <;> rfl

theorem Agrees.list {element : Decoder α} (agrees : element.Agrees Sorts) :
    (Decoder.list element).Agrees Sorts := by
  rintro _ _ ⟨distinct⟩
  cases distinct with
  | list each =>
    rw [Value.sorted_list, toOption_list_value, toOption_list_value, List.map_map, List.mapM_map,
      List.mapM_map]
    exact toOption_mapM_congr fun element inside => agrees (.intro (each element inside))
  | object once each =>
    rw [Value.sorted_object]
    rfl
  | _ => rfl

end Decoder

/-! ## Fields -/

namespace Fields

/-- What a member makes of a draft. -/
def valueStep (fields : Fields α) (draft : fields.Draft) (member : String × Value) :
    Option fields.Draft :=
  taken fields.member member.1 (.value member.2) draft

theorem readMembers_values (fields : Fields α) (members : List (String × Value))
    (draft : fields.Draft) :
    (fields.readMembers (members.map fun member => (.ok member.1, .value member.2)) draft).toOption =
      members.foldlM fields.valueStep draft := by
  induction members generalizing draft with
  | nil => rfl
  | cons member rest ih =>
    rw [List.map_cons, List.foldlM_cons, readMembers, valueStep, taken]
    cases found : fields.member member.1 (.value member.2) draft with
    | none => simp only [ofFault, Except.mapError, bind, Except.bind, found, Source.skip, ih]; rfl
    | some result =>
      cases result with
      | error error => simp only [ofFault, Except.mapError, bind, Except.bind, found]; rfl
      | ok changed => simp only [ofFault, Except.mapError, bind, Except.bind, found, ih]; rfl

/-- Members that are sorted are taken in alike. -/
theorem Agrees.foldlM_arranged {fields : Fields α} {known : List String}
    (agrees : fields.Agrees Sorts known) {members : List (String × Value)}
    (distinct : Distinct (.object members)) (draft : fields.Draft) :
    members.foldlM fields.valueStep draft = (arranged members).foldlM fields.valueStep draft := by
  cases distinct with
  | object once each =>
    -- The values are sorted one by one first, and then the members are put in order.
    have sorted : ∀ draft, members.foldlM fields.valueStep draft =
        (members.map fun member => (member.1, member.2.sorted)).foldlM fields.valueStep draft := by
      clear once
      induction members with
      | nil => exact fun _ => rfl
      | cons member rest ih =>
        intro draft
        obtain ⟨head, later⟩ := List.forall_mem_cons.mp each
        have first : fields.valueStep draft member =
            fields.valueStep draft (member.1, member.2.sorted) :=
          agrees.member member.1 draft (.intro head)
        rw [List.map_cons, List.foldlM_cons, List.foldlM_cons, first]
        exact congrArg _ (funext (ih later))
    have commute : (members.map fun member => (member.1, member.2.sorted)).Pairwise
        fun first second => ∀ draft,
          (fields.valueStep draft first).bind (fields.valueStep · second) =
            (fields.valueStep draft second).bind (fields.valueStep · first) := by
      rw [← Value.names_map_sorted, names, List.Nodup, List.pairwise_map] at once
      exact once.imp fun different draft => agrees.commute _ _ draft different
    rw [sorted, foldlM_perm (Value.arranged_perm once).symm commute]

/-! ## Records -/

theorem record_object_value (name : String) (fields : Fields α) (members : List (String × Value)) :
    (fields.record name (.value (.object members))).toOption =
      (members.foldlM fields.valueStep fields.start).bind fun draft =>
        (fields.finishMembers draft).toOption := by
  have opened : (Source.value (.object members)).opened (.record name) =
      .ok (.object (members.map fun member => (.ok member.1, .value member.2)) .closed) := rfl
  rw [← readMembers_values, record, opened]
  simp only [bind, Except.bind]
  cases fields.readMembers (members.map fun member => (.ok member.1, .value member.2))
    fields.start <;> rfl

theorem record_list_value (name : String) (fields : Fields α) (elements : List Value) :
    (fields.record name (.value (.list elements))).toOption =
      (fields.readElements 0 ((elements.map Source.value).take fields.count)
        fields.start).toOption.bind fun draft =>
          if elements.length ≤ fields.count then (fields.finishElements name draft).toOption
          else none := by
  have opened : (Source.value (.list elements)).opened (.record name) =
      .ok (.list (elements.map .value) .closed) := rfl
  have closed := toOption_closeList fields.count (elements.map Source.value)
  rw [List.length_map] at closed
  rw [record, opened]
  cases read : fields.readElements 0 ((elements.map Source.value).take fields.count)
    fields.start with
  | error error => simp only [bind, Except.bind, read]; rfl
  | ok draft =>
    simp only [List.length_map, toOption_bind, toOption_ok, Option.bind_some, read]
    split
    · next short =>
      rw [if_pos (Nat.le_of_lt short)]
      rfl
    · simp only [toOption_bind, closed]
      split <;> cases fields.finishElements name draft <;> rfl

/-- A record of fields that agree does so. -/
theorem Agrees.record {fields : Fields α} {known : List String}
    (agrees : fields.Agrees Sorts known) (name : String) : (fields.record name).Agrees Sorts := by
  rintro _ _ ⟨distinct⟩
  cases distinct with
  | @list elements each =>
    have sorted : List.Forall₂ Sorts ((elements.map Source.value).take fields.count)
        (((elements.map Value.sorted).map Source.value).take fields.count) := by
      refine List.forall₂_take _ ?_
      rw [List.map_map, List.forall₂_map_left_iff, List.forall₂_map_right_iff, List.forall₂_same]
      exact fun element inside => .intro (each element inside)
    rw [Value.sorted_list, record_list_value, record_list_value, List.length_map,
      agrees.readElements sorted]
  | object once each =>
    rw [Value.sorted_object, record_object_value, record_object_value,
      agrees.foldlM_arranged (.object once each)]
    rfl
  | _ => rfl

/-! ## Parts -/

/-- A part of a record gives the same for members and for the same sorted. -/
def PartAgrees (part : List (String × Value) → Except DecodeError β) : Prop :=
  ∀ ⦃members⦄, Distinct (.object members) →
    (part members).toOption = (part (arranged members)).toOption

theorem Agrees.part {fields : Fields α} {known : List String} (agrees : fields.Agrees Sorts known) :
    PartAgrees fields.ofMembers := by
  intro members distinct
  simp only [ofMembers, toOption_bind, readMembers_values, agrees.foldlM_arranged distinct]

theorem partAgrees_of_decoder {decoder : Decoder β} (agrees : decoder.Agrees Sorts) :
    PartAgrees fun members => decoder (.value (.object members)) := by
  intro members distinct
  have both := agrees (.intro distinct)
  rwa [Value.sorted_object] at both

/-- The own fields take in what they know, and the others are left for the part. -/
theorem readParts_values {own : Fields α} {known : List String} (knows : own.Knows known)
    (members : List (String × Value)) (draft : own.Draft) :
    (own.readParts (members.map fun member => (.ok member.1, .value member.2)) draft).toOption =
      (members.foldlM own.valueStep draft).map fun changed => (changed, others known members) := by
  induction members generalizing draft with
  | nil => rfl
  | cons member rest ih =>
    rw [List.map_cons, List.foldlM_cons, readParts, valueStep, taken]
    by_cases mine : member.1 ∈ known
    · have dropped : others known (member :: rest) = others known rest :=
        List.filter_cons_of_neg (by simpa using mine)
      obtain ⟨result, found⟩ := knows.member_eq_some mine (.value member.2) draft
      cases result with
      | error error => simp only [ofFault, Except.mapError, bind, Except.bind, found]; rfl
      | ok changed =>
        simp only [ofFault, Except.mapError, bind, Except.bind, found, ih, dropped]
        rfl
    · have kept : others known (member :: rest) = member :: others known rest :=
        List.filter_cons_of_pos (by simpa using mine)
      have passed := knows.member_eq_none mine (.value member.2) draft
      simp only [ofFault, Except.mapError, Source.read, toOption_bind, toOption_ok,
        Option.bind_some, passed, ih, kept, Option.bind_eq_bind]
      cases rest.foldlM own.valueStep draft <;> rfl

theorem flattened_object_value {own : Fields α} {known : List String} (knows : own.Knows known)
    (name : String) (part : List (String × Value) → Except DecodeError β)
    (members : List (String × Value)) :
    (own.flattened name part (.value (.object members))).toOption =
      (members.foldlM own.valueStep own.start).bind fun draft =>
        (own.finishMembers draft).toOption.bind fun a =>
          (part (others known members)).toOption.map fun b => (a, b) := by
  have opened : (Source.value (.object members)).openedObject (.record name) =
      .ok (members.map fun member => (.ok member.1, .value member.2), .closed) := rfl
  have raised : raise ObjectEnd.closed.reading? = .ok () := rfl
  simp only [flattened, opened, raised, toOption_bind, toOption_ok, Option.bind_some,
    readParts_values knows, Option.bind_map, Function.comp_def]
  refine congrArg _ (funext fun draft => congrArg _ (funext fun a => ?_))
  cases part (others known members) <;> rfl

/-- A record with a part that agrees does so. -/
theorem Agrees.flattened {own : Fields α} {known : List String} (agrees : own.Agrees Sorts known)
    {part : List (String × Value) → Except DecodeError β} (partAgrees : PartAgrees part)
    (name : String) : (own.flattened name part).Agrees Sorts := by
  rintro _ _ ⟨distinct⟩
  cases distinct with
  | object once each =>
    have distinct := Distinct.object once each
    rw [Value.sorted_object, ← arranged, flattened_object_value agrees.knows,
      flattened_object_value agrees.knows, agrees.foldlM_arranged distinct,
      Value.others_arranged once, partAgrees (distinct.others known)]
  | list each => rw [Value.sorted_list]; rfl
  | _ => rfl

/-! ## Tags -/

section
variable {κ : Type} {tag : String} (readTag : Decoder κ)

/-- The tag is read from the first member with its name, and the others are collected. -/
theorem readTagged_values {members : List (String × Value)} (once : (names members).Nodup) :
    (readTagged tag readTag (members.map fun member => (.ok member.1, .value member.2))
        none).toOption =
      match Value.lookup? tag members with
      | none => some (none, others [tag] members)
      | some v => (readTag (.value v)).toOption.map fun kind => (some kind, others [tag] members) := by
  induction members with
  | nil => rfl
  | cons member rest ih =>
    obtain ⟨name, v⟩ := member
    obtain ⟨absent, later⟩ := List.nodup_cons.mp once
    rw [List.map_cons, Value.lookup?]
    by_cases here : name = tag
    · subst here
      have dropped : others [name] ((name, v) :: rest) = others [name] rest :=
        List.filter_cons_of_neg (by simp)
      have behind (kind : κ) : readTagged name readTag
          (rest.map fun member => (.ok member.1, .value member.2)) (some kind) =
            .ok (some kind, others [name] rest) := by
        have collected : readTagged name readTag _ _ = _ :=
          readTagged_of_absent (showMembers_values rest) absent (some kind)
        rwa [named, List.map_map] at collected
      rw [readTagged_cons_tag, toOption_bind, if_pos rfl, dropped]
      simp only [behind]
      cases readTag (.value v) <;> rfl
    · have kept : others [tag] ((name, v) :: rest) = (name, v) :: others [tag] rest :=
        List.filter_cons_of_pos (by simpa using here)
      rw [readTagged_cons_other _ _ _ _ here, if_neg here, kept]
      simp only [Source.read, toOption_bind, toOption_ok, Option.bind_some, ih later]
      cases Value.lookup? tag rest with
      | none => rfl
      | some found =>
        dsimp only
        cases readTag (.value found) <;> rfl

theorem tagged_object_value (name : String) {members : List (String × Value)}
    (once : (names members).Nodup) :
    (tagged name tag readTag (.value (.object members))).toOption =
      (Value.lookup? tag members).bind fun v =>
        (readTag (.value v)).toOption.map fun kind => (kind, .object (others [tag] members)) := by
  rw [toOption_tagged_object rfl, readTagged_values readTag once]
  cases Value.lookup? tag members with
  | none => rfl
  | some v =>
    rw [Option.bind_some]
    dsimp only
    cases readTag (.value v) <;> rfl

theorem readAll_values (values : List Value) :
    Decoder.readAll Source.read (values.map Source.value) = .ok values := by
  induction values with
  | nil => rfl
  | cons v rest ih =>
    rw [List.map_cons, Decoder.readAll, ih]
    rfl

theorem tagged_list_value (name : String) (v : Value) (rest : List Value) :
    (tagged name tag readTag (.value (.list (v :: rest)))).toOption =
      (readTag (.value v)).toOption.map fun kind => (kind, .list rest) := by
  rw [toOption_tagged_list rfl, readAll_values]
  cases readTag (.value v) <;> rfl

end

/-- What is decoded by its tag agrees if the decoder of every tag does. -/
theorem agrees_tagged {tag : String} {readTag : Decoder (Decoder α)} (agrees : readTag.Agrees Sorts)
    (each : ∀ source decoder, readTag source = .ok decoder → decoder.Agrees Sorts)
    (name : String) :
    Decoder.Agrees (fun source => tagged name tag readTag source >>= fun both =>
      both.1 (.value both.2)) Sorts := by
  -- Both the tag and what stands beside it are sorted.
  have beside : ∀ {v content : Value}, v.Distinct → content.Distinct →
      ((readTag (.value v)).toOption.map fun kind => (kind, content)).bind
          (fun both => (both.1 (.value both.2)).toOption) =
        ((readTag (.value v.sorted)).toOption.map fun kind => (kind, content.sorted)).bind
          fun both => (both.1 (.value both.2)).toOption := by
    intro v content distinct inside
    rw [← agrees (.intro distinct)]
    cases found : readTag (.value v) with
    | error error => rfl
    | ok decoder => exact each _ decoder found (.intro inside)
  rintro _ _ ⟨distinct⟩
  cases distinct with
  | @object members once inside =>
    have whole := Distinct.object once inside
    have onceMore := (Value.names_arranged_perm once).nodup_iff.mpr once
    rw [Value.sorted_object, ← arranged]
    simp only [toOption_bind, tagged_object_value readTag name once,
      tagged_object_value readTag name onceMore, Value.lookup?_arranged once,
      Value.others_arranged once]
    cases found : Value.lookup? tag members with
    | none => rfl
    | some v =>
      have present := (Value.lookup?_eq_some_iff once).mp found
      have sorted := beside (inside _ present) (whole.others [tag])
      rwa [Value.sorted_object] at sorted
  | @list elements inside =>
    rw [Value.sorted_list]
    cases elements with
    | nil => rfl
    | cons v rest =>
      obtain ⟨head, later⟩ := List.forall_mem_cons.mp inside
      have sorted := beside head (.list later)
      rw [Value.sorted_list] at sorted
      simpa only [List.map_cons, toOption_bind, tagged_list_value] using sorted
  | _ => rfl

end Fields
end OperatorGen.Json
