import OperatorGen.Json.Record
import OperatorGen.Proofs.Json.Source

/-!
# Records from members in any order

A record is read from an object whose members have distinct names and offer what the record
needs (`Offers`), in whatever order they stand and whatever stands beside them. Fields say
which names they know, and what they make of members (`Fields.Reads`); two sets of fields
that know different names read side by side as they read alone.
-/
namespace OperatorGen.Json

open Source (ShowMembers named)
open Value (names)

/-- Members with distinct names, among which are those that are wanted. -/
structure Offers (members wanted : List (String × Value)) : Prop where
  distinct : (names members).Nodup
  present : wanted ⊆ members

namespace Offers

variable {members wanted : List (String × Value)}

theorem subset (offers : Offers members wanted) {fewer : List (String × Value)}
    (among : fewer ⊆ wanted) : Offers members fewer :=
  ⟨offers.distinct, List.Subset.trans among offers.present⟩

/-- Some of the members are enough if those that are wanted are among them. -/
theorem filter (offers : Offers members wanted) {keep : String × Value → Bool}
    (kept : ∀ member ∈ wanted, keep member = true) : Offers (members.filter keep) wanted where
  distinct := offers.distinct.sublist (List.filter_sublist.map Prod.fst)
  present member inside := List.mem_filter.mpr ⟨offers.present inside, kept member inside⟩

/-- Sorted members offer what the members offer, with sorted values. -/
theorem sorted (distinct : (names members).Nodup) :
    Offers (Value.sortMembers (members.map fun member => (member.1, member.2.sorted)))
      (members.map fun member => (member.1, member.2.sorted)) := by
  have same : names (members.map fun member => (member.1, member.2.sorted)) = names members := by
    rw [names, List.map_map]
    rfl
  rw [← same] at distinct
  have order := Value.sortMembers_perm distinct
  exact ⟨(order.map Prod.fst).nodup_iff.mpr distinct, order.symm.subset⟩

end Offers

/-- A member with a name is the first, if that has the name and no other has. -/
theorem eq_of_mem_cons {member : String × Value} {others : List (String × Value)} {name : String}
    {v : Value} (present : (name, v) ∈ member :: others) (absent : member.1 ∉ names others)
    (here : member.1 = name) : member = (name, v) := by
  rcases List.mem_cons.mp present with found | later
  · exact found.symm
  · rw [here] at absent
    exact absurd (List.mem_map_of_mem later) absent

theorem mem_of_mem_cons {member : String × Value} {others : List (String × Value)} {name : String}
    {v : Value} (present : (name, v) ∈ member :: others) (elsewhere : member.1 ≠ name) :
    (name, v) ∈ others := by
  rcases List.mem_cons.mp present with found | later
  · rw [← found] at elsewhere
    exact absurd rfl elsewhere
  · exact later

namespace Fields

/-- The names of the members that fields take in. -/
def Knows {α : Type} (fields : Fields α) (known : List String) : Prop :=
  ∀ key source draft, (fields.member key source draft).isSome = true ↔ key ∈ known

theorem Knows.member_eq_none {α : Type} {fields : Fields α} {known : List String}
    (knows : fields.Knows known) {key : String} (unknown : key ∉ known) (source : Source)
    (draft : fields.Draft) : fields.member key source draft = none := by
  cases taken : fields.member key source draft with
  | none => rfl
  | some result => exact absurd ((knows key source draft).mp (by rw [taken]; rfl)) unknown

theorem Knows.member_eq_some {α : Type} {fields : Fields α} {known : List String}
    (knows : fields.Knows known) {key : String} (member : key ∈ known) (source : Source)
    (draft : fields.Draft) : ∃ result, fields.member key source draft = some result :=
  Option.isSome_iff_exists.mp ((knows key source draft).mpr member)

/-- Fields that know some names, and what they make of the members of an object. -/
structure Reads {α : Type} (fields : Fields α) (known : List String)
    (members : List (String × Value)) (a : α) : Prop where
  knows : fields.Knows known
  reads : ∀ sources, ShowMembers sources members →
    ∃ draft, fields.readMembers (named sources) fields.start = .ok draft ∧
      ∀ missing offset, fields.finish missing offset draft = .ok a

/-! ## Single fields -/

theorem knows_field {α : Type} (name : String) (decoder : Decoder α) (default : Option α) :
    (field name decoder default).Knows [name] := by
  intro key source draft
  by_cases same : key = name
  · cases draft <;> simp [field, same]
  · simp [field, same]

theorem readMembers_cons_some {α : Type} {fields : Fields α} {source : String × Source}
    {rest : List (String × Source)} {draft : fields.Draft} {result : Except DecodeError fields.Draft}
    (taken : fields.member source.1 source.2 draft = some result) :
    fields.readMembers (named (source :: rest)) draft =
      result >>= fun changed => fields.readMembers (named rest) changed := by
  simp only [named, List.map_cons, readMembers, ofFault, Except.mapError, bind, Except.bind, taken]

theorem readMembers_cons_none {α : Type} {fields : Fields α} {source : String × Source}
    {rest : List (String × Source)} {draft : fields.Draft}
    (passed : fields.member source.1 source.2 draft = none) :
    fields.readMembers (named (source :: rest)) draft =
      source.2.skip >>= fun _ => fields.readMembers (named rest) draft := by
  simp only [named, List.map_cons, readMembers, ofFault, Except.mapError, bind, Except.bind, passed]

/-- Members that fields do not know leave the draft as it is. -/
theorem readMembers_of_unknown {α : Type} {fields : Fields α} {known : List String}
    (knows : fields.Knows known) {sources : List (String × Source)}
    {members : List (String × Value)} (shown : ShowMembers sources members)
    (unknown : ∀ name ∈ names members, name ∉ known) (draft : fields.Draft) :
    fields.readMembers (named sources) draft = .ok draft := by
  induction shown with
  | nil => rfl
  | @cons source member _ _ first _ ih =>
    obtain ⟨same, shows⟩ := first
    obtain ⟨here, later⟩ := List.forall_mem_cons.mp unknown
    rw [← same] at here
    rw [readMembers_cons_none (knows.member_eq_none here _ _), shows.skip]
    exact ih later

/-- A field is read from the one member with its name. -/
theorem reads_field {α : Type} {name : String} {decoder : Decoder α} {default : Option α}
    {members : List (String × Value)} {v : Value} {a : α} (distinct : (names members).Nodup)
    (present : (name, v) ∈ members) (decodes : Decodes decoder v a) :
    (field name decoder default).Reads [name] members a := by
  have knows := knows_field name decoder default
  refine ⟨knows, fun sources shown => ⟨some a, ?_, fun _ _ => rfl⟩⟩
  induction shown with
  | nil => cases present
  | @cons source member _ others first shown ih =>
    obtain ⟨same, shows⟩ := first
    obtain ⟨absent, rest⟩ := List.nodup_cons.mp distinct
    by_cases here : source.1 = name
    · -- The rest has no other member with the name.
      obtain rfl := eq_of_mem_cons present absent (same.symm.trans here)
      have taken : (field name decoder default).member source.1 source.2
          (field name decoder default).start = some (.ok (some a)) := by
        simp [field, here, decodes _ shows, Except.map]
      rw [readMembers_cons_some taken]
      refine readMembers_of_unknown knows shown (fun other inside known => ?_) _
      obtain rfl := List.mem_singleton.mp known
      exact absent inside
    · have later : (name, v) ∈ others := mem_of_mem_cons present (same ▸ here)
      have unknown : source.1 ∉ [name] := mt List.mem_singleton.mp here
      rw [readMembers_cons_none (knows.member_eq_none unknown _ _), shows.skip]
      exact ih rest later

/-! ## Fields side by side -/

theorem knows_and {α β : Type} {first : Fields α} {second : Fields β} {left right : List String}
    (firstKnows : first.Knows left) (secondKnows : second.Knows right) :
    (first.and second).Knows (left ++ right) := by
  intro key source draft
  rw [List.mem_append, ← firstKnows key source draft.1, ← secondKnows key source draft.2]
  cases taken : first.member key source draft.1 <;>
    cases other : second.member key source draft.2 <;> simp [Fields.and, taken, other]

/-- Two sets of fields that know different names take in members as they do alone. -/
theorem readMembers_and {α β : Type} {first : Fields α} {second : Fields β}
    {left right : List String} (firstKnows : first.Knows left) (secondKnows : second.Knows right)
    (apart : ∀ name ∈ left, name ∉ right) {sources : List (String × Source)}
    {members : List (String × Value)} (shown : ShowMembers sources members)
    {a : first.Draft} {b : second.Draft} {c : first.Draft} {d : second.Draft}
    (firstRead : first.readMembers (named sources) a = .ok c)
    (secondRead : second.readMembers (named sources) b = .ok d) :
    (first.and second).readMembers (named sources) (a, b) = .ok (c, d) := by
  induction shown generalizing a b with
  | nil =>
    cases firstRead
    cases secondRead
    rfl
  | @cons source member _ _ shows _ ih =>
    have skipped := shows.2.skip
    by_cases inFirst : source.1 ∈ left
    · obtain ⟨result, taken⟩ := firstKnows.member_eq_some inFirst source.2 a
      have passed := secondKnows.member_eq_none (apart _ inFirst) source.2 b
      have whole : (first.and second).member source.1 source.2 (a, b) =
          some (result.map fun changed => (changed, b)) := by
        simp only [Fields.and, taken]
      rw [readMembers_cons_some taken, bind_ok_iff] at firstRead
      obtain ⟨changed, rfl, later⟩ := firstRead
      rw [readMembers_cons_none passed, skipped] at secondRead
      rw [readMembers_cons_some whole]
      exact ih later secondRead
    · have passed := firstKnows.member_eq_none inFirst source.2 a
      rw [readMembers_cons_none passed, skipped] at firstRead
      by_cases inSecond : source.1 ∈ right
      · obtain ⟨result, taken⟩ := secondKnows.member_eq_some inSecond source.2 b
        have whole : (first.and second).member source.1 source.2 (a, b) =
            some (result.map fun changed => (a, changed)) := by
          simp only [Fields.and, passed, taken]
          rfl
        rw [readMembers_cons_some taken, bind_ok_iff] at secondRead
        obtain ⟨changed, rfl, later⟩ := secondRead
        rw [readMembers_cons_some whole]
        exact ih firstRead later
      · have ignored := secondKnows.member_eq_none inSecond source.2 b
        have whole : (first.and second).member source.1 source.2 (a, b) = none := by
          simp only [Fields.and, passed, ignored]
          rfl
        rw [readMembers_cons_none ignored, skipped] at secondRead
        rw [readMembers_cons_none whole, skipped]
        exact ih firstRead secondRead

theorem Reads.and {α β : Type} {first : Fields α} {second : Fields β} {left right : List String}
    {members : List (String × Value)} {a : α} {b : β} (firstReads : first.Reads left members a)
    (secondReads : second.Reads right members b) (apart : ∀ name ∈ left, name ∉ right) :
    (first.and second).Reads (left ++ right) members (a, b) where
  knows := knows_and firstReads.knows secondReads.knows
  reads sources shown := by
    obtain ⟨c, firstRead, firstDone⟩ := firstReads.reads sources shown
    obtain ⟨d, secondRead, secondDone⟩ := secondReads.reads sources shown
    refine ⟨(c, d), readMembers_and firstReads.knows secondReads.knows apart shown firstRead
      secondRead, fun missing offset => ?_⟩
    simp only [Fields.and, firstDone, secondDone]
    rfl

theorem readMembers_map {α β : Type} {fields : Fields α} (build : α → β)
    (sources : List (String × Source)) (draft : fields.Draft) :
    (fields.map build).readMembers (named sources) draft =
      fields.readMembers (named sources) draft := by
  induction sources generalizing draft with
  | nil => rfl
  | cons source rest ih =>
    cases taken : fields.member source.1 source.2 draft with
    | none =>
      have passed : (fields.map build).member source.1 source.2 draft = none := taken
      rw [readMembers_cons_none taken, readMembers_cons_none passed, ih]
      rfl
    | some result =>
      have changed : (fields.map build).member source.1 source.2 draft = some result := taken
      rw [readMembers_cons_some taken, readMembers_cons_some changed]
      exact congrArg (result >>= ·) (funext ih)

theorem Reads.map {α β : Type} {fields : Fields α} {known : List String}
    {members : List (String × Value)} {a : α} (reads : fields.Reads known members a)
    (build : α → β) : (fields.map build).Reads known members (build a) where
  knows := reads.knows
  reads sources shown := by
    obtain ⟨draft, read, done⟩ := reads.reads sources shown
    refine ⟨draft, (readMembers_map build _ _).trans read, fun missing offset => ?_⟩
    exact map_ok_iff.mpr ⟨a, done missing offset, rfl⟩

/-! ## Records -/

/-- A record is read from an object that its fields read. -/
theorem Reads.record {α : Type} {fields : Fields α} {known : List String}
    {members : List (String × Value)} {a : α} (reads : fields.Reads known members a)
    (name : String) : Decodes (fields.record name) (.object members) a := by
  intro source shows
  obtain ⟨sources, opened, shown⟩ := shows.opened (.record name)
  obtain ⟨draft, read, done⟩ := reads.reads sources shown
  rw [Fields.record, opened]
  simp only [bind, Except.bind, read, finishMembers, done]
  rfl

theorem Reads.ofMembers {α : Type} {fields : Fields α} {known : List String}
    {members : List (String × Value)} {a : α} (reads : fields.Reads known members a) :
    fields.ofMembers members = .ok a := by
  obtain ⟨draft, read, done⟩ := reads.reads _ (Source.showMembers_values members)
  rw [named, List.map_map] at read
  have taken : fields.readMembers (members.map fun member => (.ok member.1, .value member.2))
      fields.start = .ok draft := read
  rw [Fields.ofMembers, taken]
  exact done _ _

/-! ## Parts and tags -/

/-- The members that are left when those with some names are taken. -/
def others (known : List String) (members : List (String × Value)) : List (String × Value) :=
  members.filter fun member => member.1 ∉ known

theorem readParts_eq {α : Type} {own : Fields α} {known : List String} (knows : own.Knows known)
    {sources : List (String × Source)} {members : List (String × Value)}
    (shown : ShowMembers sources members) {draft changed : own.Draft}
    (read : own.readMembers (named sources) draft = .ok changed) :
    own.readParts (named sources) draft = .ok (changed, others known members) := by
  induction shown generalizing draft with
  | nil =>
    cases read
    rfl
  | @cons source member _ later first _ ih =>
    obtain ⟨same, shows⟩ := first
    by_cases mine : source.1 ∈ known
    · have dropped : others known (member :: later) = others known later :=
        List.filter_cons_of_neg (by simpa [← same] using mine)
      obtain ⟨result, taken⟩ := knows.member_eq_some mine source.2 draft
      rw [readMembers_cons_some taken, bind_ok_iff] at read
      obtain ⟨next, rfl, rest⟩ := read
      rw [dropped, ← ih rest]
      simp only [named, List.map_cons, readParts, ofFault, Except.mapError, bind, Except.bind, taken]
    · have kept : others known (member :: later) = member :: others known later :=
        List.filter_cons_of_pos (by simpa [← same] using mine)
      have passed := knows.member_eq_none mine source.2 draft
      rw [readMembers_cons_none passed, shows.skip] at read
      have rest := ih read
      simp only [named] at rest
      simp only [named, List.map_cons, readParts, ofFault, Except.mapError, bind, Except.bind, passed,
        shows.read, rest, kept]
      rw [same]

/-- A part is read from the members that the own fields do not know. -/
theorem Reads.flattened {α β : Type} {own : Fields α} {known : List String}
    {members : List (String × Value)} {a : α} {b : β} (reads : own.Reads known members a)
    {part : List (String × Value) → Except DecodeError β}
    (partRead : part (others known members) = .ok b) (name : String) :
    Decodes (own.flattened name part) (.object members) (a, b) := by
  intro source shows
  obtain ⟨sources, opened, shown⟩ := shows.openedObject (.record name)
  obtain ⟨draft, read, done⟩ := reads.reads sources shown
  rw [Fields.flattened, opened]
  simp only [bind, Except.bind, readParts_eq reads.knows shown read, finishMembers, done, partRead]
  rfl

/-- Members without the tag are collected. -/
theorem readTagged_of_absent {κ : Type} {tag : String} {readTag : Decoder κ}
    {sources : List (String × Source)} {members : List (String × Value)}
    (shown : ShowMembers sources members) (absent : tag ∉ names members) (seen : Option κ) :
    readTagged tag readTag (named sources) seen = .ok (seen, others [tag] members) := by
  induction shown with
  | nil => rfl
  | @cons source member _ later first _ ih =>
    obtain ⟨same, shows⟩ := first
    obtain ⟨here, rest⟩ := not_or.mp (mt List.mem_cons.mpr absent)
    have different : source.1 ≠ tag := fun found => here (found.symm.trans same)
    have kept : others [tag] (member :: later) = member :: others [tag] later :=
      List.filter_cons_of_pos (by simpa [← same] using different)
    have collected := ih rest
    simp only [named] at collected
    simp only [named, List.map_cons, readTagged, ofFault, Except.mapError, bind, Except.bind,
      if_neg different, shows.read, collected, kept]
    rw [same]

/-- The tag is read from the one member with its name, and the others are collected. -/
theorem readTagged_eq {κ : Type} {tag : String} {readTag : Decoder κ} {v : Value} {kind : κ}
    (decodes : Decodes readTag v kind) {sources : List (String × Source)}
    {members : List (String × Value)} (shown : ShowMembers sources members)
    (distinct : (names members).Nodup) (present : (tag, v) ∈ members) :
    readTagged tag readTag (named sources) none = .ok (some kind, others [tag] members) := by
  induction shown with
  | nil => cases present
  | @cons source member _ later first shown ih =>
    obtain ⟨same, shows⟩ := first
    obtain ⟨absent, rest⟩ := List.nodup_cons.mp distinct
    by_cases here : source.1 = tag
    · obtain rfl := eq_of_mem_cons present absent (same.symm.trans here)
      have dropped : others [tag] ((tag, v) :: later) = others [tag] later :=
        List.filter_cons_of_neg (by simp)
      have collected : readTagged tag readTag (named _) (some kind) = _ :=
        readTagged_of_absent shown absent (some kind)
      simp only [named] at collected
      simp only [named, List.map_cons, readTagged, ofFault, Except.mapError, bind, Except.bind,
        if_pos here, decodes _ shows, collected, dropped]
    · have behind : (tag, v) ∈ later := mem_of_mem_cons present (same ▸ here)
      have kept : others [tag] (member :: later) = member :: others [tag] later :=
        List.filter_cons_of_pos (by simpa [← same] using here)
      have collected := ih rest behind
      simp only [named] at collected
      simp only [named, List.map_cons, readTagged, ofFault, Except.mapError, bind, Except.bind,
        if_neg here, shows.read, collected, kept]
      rw [same]

/-- A tagged object is its tag and the object without it. -/
theorem tagged_decodes {κ : Type} {tag : String} {readTag : Decoder κ} {v : Value} {kind : κ}
    {members : List (String × Value)} (distinct : (names members).Nodup)
    (present : (tag, v) ∈ members) (decodes : Decodes readTag v kind) (name : String) :
    Decodes (tagged name tag readTag) (.object members) (kind, .object (others [tag] members)) := by
  intro source shows
  obtain ⟨sources, opened, shown⟩ := shows.opened (.tagged name)
  rw [tagged, opened]
  simp only [bind, Except.bind, readTagged_eq decodes shown distinct present]
  rfl

end Fields
end OperatorGen.Json
