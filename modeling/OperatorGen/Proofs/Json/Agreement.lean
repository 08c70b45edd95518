import OperatorGen.Proofs.Json.Related
import OperatorGen.Proofs.Json.Sameness

/-!
# Decoders that look at the value alone

A decoder respects sameness if it gives the same result, or none, wherever the same value is
written without repeated names (`Decoder.Respects`). Fields do so if a member is taken in by
its value alone and members with different names are taken in in either order
(`Fields.Respects`); a record of such fields respects sameness.
-/
namespace OperatorGen.Json

open Text (Part)

variable {α β : Type}

namespace Datum

/-- A datum in a text, with room for so many nested lists and objects. -/
def source (room : Nat) (datum : Datum) : Source :=
  .text room datum.tree

/-- The name of a member and the source of its value. -/
def memberSource (room : Nat) (member : List Part × Datum) : Except Fault String × Source :=
  (textOf member.1, member.2.source room)

theorem skip_source (room : Nat) (datum : Datum) : (datum.source room).skip = .ok () := by
  rw [source, Source.skip, (closed_tree datum).skip]
  rfl

/-- What stands in the place of a value is told by the value. -/
theorem Same.found {first second : Datum} (same : first.Same second) (room : Nat) :
    (first.source room).found.toOption = (second.source room).found.toOption := by
  cases same with
  | text units =>
    simp only [source, Source.found, ofFault, tree, Tree.found, toOption_mapError, toOption_map,
      textOf_congr units]
  | _ => rfl

end Datum

open Datum (source memberSource)

/-! ## Decoders -/

/-- Places in texts where the same value is written without repeated names. -/
inductive SameSource : Source → Source → Prop
  | intro {room : Nat} {first second : Datum} (same : first.Same second)
    (distinct : first.Distinct) : SameSource (first.source room) (second.source room)

/-- A decoder gives the same wherever the same value is written. -/
def Decoder.Respects (decoder : Decoder α) : Prop :=
  ∀ ⦃room : Nat⦄ ⦃first second : Datum⦄, first.Same second → first.Distinct →
    (decoder (first.source room)).toOption = (decoder (second.source room)).toOption

namespace Decoder

theorem respects_iff {decoder : Decoder α} : decoder.Respects ↔ decoder.Agrees SameSource := by
  constructor
  · rintro respects _ _ ⟨same, distinct⟩
    exact respects same distinct
  · exact fun agrees room first second same distinct => agrees (.intro same distinct)

theorem Respects.map {decoder : Decoder α} (respects : decoder.Respects) (build : α → β) :
    Decoder.Respects fun source => (decoder source).map build :=
  respects_iff.mpr ((respects_iff.mp respects).map build)

theorem Respects.bind {decoder : Decoder α} (respects : decoder.Respects)
    (next : α → Except DecodeError β) : Decoder.Respects fun source => decoder source >>= next :=
  respects_iff.mpr ((respects_iff.mp respects).bind next)

theorem respects_found : Decoder.Respects Source.found :=
  fun room _ _ same _ => same.found room

theorem respects_text : Decoder.text.Respects :=
  respects_found.bind _

theorem respects_word : word.Respects :=
  respects_found.bind _

/-- A value is sorted, so the order of its members is gone. -/
theorem respects_value : Decoder.value.Respects := by
  intro room first second same distinct
  have sorted : ∀ datum : Datum,
      (Decoder.value (datum.source room)).toOption = (datum.readSorted room).toOption := by
    intro datum
    simp only [Decoder.value, source, Source.read, ofFault, Datum.readSorted, toOption_bind,
      toOption_mapError, toOption_map]
    cases (datum.tree.value room).toOption <;> rfl
  rw [sorted, sorted, same.readSorted distinct]

/-- Elements that are the same values are decoded alike. -/
theorem Respects.readAll {element : Decoder α} (respects : element.Respects)
    {pairs : List (Datum × Datum)} (each : ∀ pair ∈ pairs, pair.1.Same pair.2)
    (distinct : ∀ datum ∈ pairs.map Prod.fst, datum.Distinct) (room : Nat) :
    (Decoder.readAll element ((pairs.map Prod.fst).map (source room))).toOption =
      (Decoder.readAll element ((pairs.map Prod.snd).map (source room))).toOption := by
  simp only [readAll_eq_mapM, List.mapM_map]
  exact toOption_mapM_congr fun pair among =>
    respects (each pair among) (distinct _ (List.mem_map_of_mem among))

theorem list_source (element : Decoder α) (room : Nat) (elements : List Datum) :
    (Decoder.list element ((Datum.list elements).source room)).toOption =
      (Tree.enter room).toOption.bind fun inner =>
        (Decoder.readAll element (elements.map (source inner))).toOption := by
  rw [Decoder.list, source, Datum.tree_list, Source.openedList]
  cases Tree.enter room with
  | error fault => rfl
  | ok inner =>
    have parts : (elements.map Datum.tree).map (Source.text inner) = elements.map (source inner) :=
      List.map_map
    simp only [bind, Except.bind, ofFault, Except.mapError, parts, toOption_ok, Option.bind_some]
    cases Decoder.readAll element (elements.map (source inner)) <;> rfl

/-- What is no list is not decoded as one. -/
theorem list_of_other {element : Decoder α} {datum : Datum}
    (other : ∀ elements, datum ≠ .list elements) (room : Nat) :
    (Decoder.list element (datum.source room)).toOption = none := by
  cases datum with
  | list elements => exact absurd rfl (other elements)
  | _ =>
    simp only [Decoder.list, source, Datum.tree, Source.openedList, toOption_bind, toOption_refuse]
    rfl

theorem Respects.list {element : Decoder α} (respects : element.Respects) :
    (Decoder.list element).Respects := by
  intro room first second same distinct
  cases same with
  | list each =>
    cases distinct with
    | list distinct =>
      simp only [list_source, respects.readAll each distinct]
  | _ =>
    refine (list_of_other ?_ room).trans (list_of_other ?_ room).symm <;> exact fun _ => nofun

/-- What a text denotes is what its datum denotes. -/
theorem toOption_decode (decoder : Decoder α) {text : String} {datum : Datum}
    (spelled : datum.Spells text.toList) :
    (decoder.decode text).toOption = (decoder (datum.source Tree.roomInText)).toOption := by
  rw [decode, spelled.ofText, toOption_bind, source]
  cases decoder (.text Tree.roomInText datum.tree) <;> rfl

/-- Texts that denote the same value are decoded alike. -/
theorem Respects.decode {decoder : Decoder α} (respects : decoder.Respects) {first second : String}
    (same : Datum.SameText first second) :
    (decoder.decode first).toOption = (decoder.decode second).toOption := by
  obtain ⟨value, other, spelled, also, same, distinct⟩ := same
  rw [toOption_decode decoder spelled, toOption_decode decoder also, respects same distinct]

end Decoder

/-! ## Fields -/

namespace Fields

/-- Fields that know some names take in members by their values alone, and those with
    different names in either order. -/
structure Respects (fields : Fields α) (known : List String) : Prop where
  knows : fields.Knows known
  member : ∀ {room : Nat} {first second : Datum} (name : String) (draft : fields.Draft),
    first.Same second → first.Distinct →
      taken fields.member name (first.source room) draft =
        taken fields.member name (second.source room) draft
  element : ∀ {room : Nat} {first second : Datum} (position : Nat) (draft : fields.Draft),
    first.Same second → first.Distinct →
      (fields.element position (first.source room) draft).toOption =
        (fields.element position (second.source room) draft).toOption
  commute : ∀ {name other : String} (source another : Source) (draft : fields.Draft),
    name ≠ other →
      (taken fields.member name source draft).bind (taken fields.member other another) =
        (taken fields.member other another draft).bind (taken fields.member name source)

theorem Respects.agrees {fields : Fields α} {known : List String}
    (respects : fields.Respects known) : fields.Agrees SameSource known where
  knows := respects.knows
  member name draft := by
    rintro ⟨same, distinct⟩
    exact respects.member name draft same distinct
  element position draft := by
    rintro ⟨same, distinct⟩
    exact respects.element position draft same distinct
  commute source another draft different := respects.commute source another draft different

theorem Agrees.respects {fields : Fields α} {known : List String}
    (agrees : fields.Agrees SameSource known) : fields.Respects known where
  knows := agrees.knows
  member name draft same distinct := agrees.member name draft (.intro same distinct)
  element position draft same distinct := agrees.element position draft (.intro same distinct)
  commute source another draft different := agrees.commute source another draft different

theorem respects_field {decoder : Decoder α} (respects : decoder.Respects) (name : String)
    (default : Option α) : (field name decoder default).Respects [name] :=
  (agrees_field (Decoder.respects_iff.mp respects) name default).respects

theorem Respects.and {first : Fields α} {second : Fields β} {left right : List String}
    (one : first.Respects left) (two : second.Respects right) :
    (first.and second).Respects (left ++ right) :=
  (one.agrees.and two.agrees).respects

theorem Respects.map {fields : Fields α} {known : List String} (respects : fields.Respects known)
    (build : α → β) : (fields.map build).Respects known :=
  (respects.agrees.map build).respects

/-! ## Members in any order -/

/-- What a member of an object makes of a draft, if its name denotes a text. -/
def step (fields : Fields α) (room : Nat) (draft : fields.Draft) (member : List Part × Datum) :
    Option fields.Draft :=
  (Datum.textOf member.1).toOption.bind fun name =>
    taken fields.member name (member.2.source room) draft

theorem readMembers_eq_foldlM (fields : Fields α) (room : Nat) (members : List (List Part × Datum))
    (draft : fields.Draft) :
    (fields.readMembers (members.map (memberSource room)) draft).toOption =
      members.foldlM (fields.step room) draft := by
  induction members generalizing draft with
  | nil => rfl
  | cons member rest ih =>
    rw [List.map_cons, List.foldlM_cons, memberSource, readMembers, step]
    cases Datum.textOf member.1 with
    | error fault => rfl
    | ok name =>
      cases found : fields.member name (member.2.source room) draft with
      | none =>
        simp only [ofFault, Except.mapError, bind, Except.bind, found, Datum.skip_source,
          toOption_ok, Option.bind_some, taken, ih]
      | some result =>
        cases result with
        | error error =>
          simp only [ofFault, Except.mapError, bind, Except.bind, found, toOption_ok,
            Option.bind_some, taken, toOption_error, Option.bind_none]
        | ok changed =>
          simp only [ofFault, Except.mapError, bind, Except.bind, found, toOption_ok,
            Option.bind_some, taken, ih]

/-- Members with different names are taken in in either order. -/
theorem Respects.step_comm {fields : Fields α} {known : List String}
    (respects : fields.Respects known) (room : Nat) {first second : List Part × Datum}
    (different : Text.units first.1 ≠ Text.units second.1) (draft : fields.Draft) :
    (fields.step room draft first).bind (fields.step room · second) =
      (fields.step room draft second).bind (fields.step room · first) := by
  simp only [step]
  cases one : Datum.textOf first.1 with
  | error fault => simp
  | ok name =>
    cases two : Datum.textOf second.1 with
    | error fault => simp
    | ok other =>
      have apart : name ≠ other := by
        rintro rfl
        exact different ((Datum.textOf_ok_iff.mp one).trans (Datum.textOf_ok_iff.mp two).symm)
      exact respects.commute _ _ draft apart

/-- Members that are the same values under the same names are taken in alike. -/
theorem Respects.foldlM_congr {fields : Fields α} {known : List String}
    (respects : fields.Respects known) {pairs : List ((List Part × Datum) × (List Part × Datum))}
    (units : ∀ pair ∈ pairs, Text.units pair.1.1 = Text.units pair.2.1)
    (each : ∀ pair ∈ pairs, pair.1.2.Same pair.2.2)
    (distinct : ∀ member ∈ pairs.map Prod.fst, member.2.Distinct) (room : Nat)
    (draft : fields.Draft) :
    (pairs.map Prod.fst).foldlM (fields.step room) draft =
      (pairs.map Prod.snd).foldlM (fields.step room) draft := by
  induction pairs generalizing draft with
  | nil => rfl
  | cons pair rest ih =>
    obtain ⟨sameName, otherNames⟩ := List.forall_mem_cons.mp units
    obtain ⟨same, others⟩ := List.forall_mem_cons.mp each
    rw [List.map_cons] at distinct
    obtain ⟨once, later⟩ := List.forall_mem_cons.mp distinct
    have first : fields.step room draft pair.1 = fields.step room draft pair.2 := by
      simp only [step, Datum.textOf_congr sameName, respects.member _ _ same once]
    simp only [List.map_cons, List.foldlM_cons, first, ih otherNames others later]

/-- The members of an object are taken in alike, in whatever order they stand. -/
theorem Respects.foldlM_perm {fields : Fields α} {known : List String}
    (respects : fields.Respects known) {pairs : List ((List Part × Datum) × (List Part × Datum))}
    {members : List (List Part × Datum)}
    (units : ∀ pair ∈ pairs, Text.units pair.1.1 = Text.units pair.2.1)
    (each : ∀ pair ∈ pairs, pair.1.2.Same pair.2.2)
    (order : (pairs.map Prod.snd).Perm members) (once : (Datum.names (pairs.map Prod.fst)).Nodup)
    (distinct : ∀ member ∈ pairs.map Prod.fst, member.2.Distinct) (room : Nat)
    (draft : fields.Draft) :
    (pairs.map Prod.fst).foldlM (fields.step room) draft =
      members.foldlM (fields.step room) draft := by
  have commute : (pairs.map Prod.snd).Pairwise fun first second => ∀ draft,
      (fields.step room draft first).bind (fields.step room · second) =
        (fields.step room draft second).bind (fields.step room · first) := by
    rw [Datum.names_congr units, Datum.names, List.Nodup, List.pairwise_map] at once
    exact once.imp fun different => respects.step_comm room different
  rw [respects.foldlM_congr units each distinct, OperatorGen.foldlM_perm order commute]

/-! ## Records -/

theorem opened_object (room : Nat) (members : List (List Part × Datum)) (wanted : Wanted) :
    ((Datum.object members).source room).opened wanted =
      ofFault (Tree.enter room) >>= fun inner =>
        .ok (.object (members.map (memberSource inner)) .closed) := by
  have parts : ∀ inner, (members.map Datum.memberTree).map
      (fun member => (member.1, Source.text inner member.2)) = members.map (memberSource inner) :=
    fun inner => List.map_map
  rw [source, Datum.tree_object, Source.opened, Source.openedObject]
  · cases Tree.enter room with
    | error fault => rfl
    | ok inner =>
      simp only [ofFault, Except.mapError, bind, Except.bind, parts]
  · rintro inner elements ending same
    cases same
  · rintro elements same
    cases same

theorem opened_list (room : Nat) (elements : List Datum) (wanted : Wanted) :
    ((Datum.list elements).source room).opened wanted =
      ofFault (Tree.enter room) >>= fun inner =>
        .ok (.list (elements.map (source inner)) .closed) := by
  have parts : ∀ inner, (elements.map Datum.tree).map (Source.text inner) =
      elements.map (source inner) := fun inner => List.map_map
  rw [source, Datum.tree_list, Source.opened, Source.openedList]
  cases Tree.enter room with
  | error fault => rfl
  | ok inner => simp only [ofFault, Except.mapError, bind, Except.bind, parts]

theorem record_object (name : String) (fields : Fields α) (room : Nat)
    (members : List (List Part × Datum)) :
    (fields.record name ((Datum.object members).source room)).toOption =
      (Tree.enter room).toOption.bind fun inner =>
        (members.foldlM (fields.step inner) fields.start).bind fun draft =>
          (fields.finishMembers draft).toOption := by
  have opened := opened_object room members (.record name)
  cases entered : Tree.enter room with
  | error fault =>
    rw [entered] at opened
    rw [record, opened]
    rfl
  | ok inner =>
    rw [entered] at opened
    rw [record, opened, toOption_ok, Option.bind_some, ← readMembers_eq_foldlM]
    cases read : fields.readMembers (members.map (memberSource inner)) fields.start <;>
      simp only [ofFault, Except.mapError, bind, Except.bind, read] <;> rfl

/-- A record that is read from a list, which may be shorter than its fields but not longer. -/
theorem record_list (name : String) (fields : Fields α) (room : Nat) (elements : List Datum) :
    (fields.record name ((Datum.list elements).source room)).toOption =
      (Tree.enter room).toOption.bind fun inner =>
        (fields.readElements 0 ((elements.take fields.count).map (source inner))
          fields.start).toOption.bind fun draft =>
            if elements.length ≤ fields.count then (fields.finishElements name draft).toOption
            else none := by
  have opened := opened_list room elements (.record name)
  cases entered : Tree.enter room with
  | error fault =>
    rw [entered] at opened
    rw [record, opened]
    rfl
  | ok inner =>
    rw [entered] at opened
    rw [record, opened, toOption_ok, Option.bind_some, List.map_take]
    cases read : fields.readElements 0 ((elements.map (source inner)).take fields.count)
      fields.start with
    | error error => simp only [ofFault, Except.mapError, bind, Except.bind, read]; rfl
    | ok draft =>
      have closed := toOption_closeList fields.count (elements.map (source inner))
      rw [List.length_map] at closed
      simp only [ofFault, Except.mapError, List.length_map, toOption_bind, read, toOption_ok,
        Option.bind_some]
      split
      · next short =>
        rw [if_pos (Nat.le_of_lt short)]
        rfl
      · simp only [toOption_bind, closed]
        split <;> cases fields.finishElements name draft <;> rfl

theorem record_of_other (name : String) (fields : Fields α) (room : Nat) {datum : Datum}
    (noList : ∀ elements, datum ≠ .list elements) (noObject : ∀ members, datum ≠ .object members) :
    (fields.record name (datum.source room)).toOption = none := by
  cases datum with
  | list elements => exact absurd rfl (noList elements)
  | object members => exact absurd rfl (noObject members)
  | _ =>
    simp only [record, source, Datum.tree, Source.opened, Source.openedObject, toOption_bind,
      Decoder.toOption_refuse]
    rfl

theorem Respects.readElements {fields : Fields α} {known : List String}
    (respects : fields.Respects known) {pairs : List (Datum × Datum)}
    (each : ∀ pair ∈ pairs, pair.1.Same pair.2)
    (distinct : ∀ datum ∈ pairs.map Prod.fst, datum.Distinct) (room position : Nat)
    (draft : fields.Draft) :
    (fields.readElements position ((pairs.map Prod.fst).map (source room)) draft).toOption =
      (fields.readElements position ((pairs.map Prod.snd).map (source room)) draft).toOption := by
  rw [List.map_map, List.map_map]
  refine respects.agrees.readElements ?_ position draft
  rw [List.forall₂_map_left_iff, List.forall₂_map_right_iff, List.forall₂_same]
  exact fun pair among => .intro (each pair among) (distinct _ (List.mem_map_of_mem among))

/-- A record of fields that respect sameness does so. -/
theorem Respects.record {fields : Fields α} {known : List String} (respects : fields.Respects known)
    (name : String) : (fields.record name).Respects := by
  intro room first second same distinct
  cases same with
  | @list pairs each =>
    cases distinct with
    | list distinct =>
      have some : ∀ pair ∈ pairs.take fields.count, pair.1.Same pair.2 :=
        fun pair among => each pair (List.mem_of_mem_take among)
      have once : ∀ datum ∈ (pairs.take fields.count).map Prod.fst, datum.Distinct := by
        rw [List.map_take]
        exact fun datum among => distinct datum (List.mem_of_mem_take among)
      have alike := fun inner => respects.readElements some once inner 0 fields.start
      simp only [record_list, List.length_map, ← List.map_take, alike]
  | object units each order =>
    cases distinct with
    | object once distinct =>
      simp only [record_object, respects.foldlM_perm units each order once distinct]
  | _ =>
    refine (record_of_other name fields room ?_ ?_).trans
      (record_of_other name fields room ?_ ?_).symm <;> exact fun _ => nofun

end Fields
end OperatorGen.Json
