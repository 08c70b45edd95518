import OperatorGen.Proofs.Json.Record
import OperatorGen.Proofs.Success

/-!
# Decoders of related sources

A decoder agrees on related sources if it gives the same result on both, or none on either
(`Decoder.Agrees`). Fields do so if a member is taken in alike from related sources and members
with different names are taken in in either order (`Fields.Agrees`). Which sources are related
is left open: where the same value is written in two ways, or a value and the one that it sorts
to.
-/
namespace OperatorGen.Json

variable {α β : Type} {related : Source → Source → Prop}

/-! ## Decoders -/

/-- A decoder gives the same on related sources. -/
def Decoder.Agrees (decoder : Decoder α) (related : Source → Source → Prop) : Prop :=
  ∀ ⦃source other : Source⦄, related source other →
    (decoder source).toOption = (decoder other).toOption

namespace Decoder

theorem Agrees.map {decoder : Decoder α} (agrees : decoder.Agrees related) (build : α → β) :
    Decoder.Agrees (fun source => (decoder source).map build) related := by
  intro source other both
  simp only [toOption_map, agrees both]

theorem Agrees.bind {decoder : Decoder α} (agrees : decoder.Agrees related)
    (next : α → Except DecodeError β) :
    Decoder.Agrees (fun source => decoder source >>= next) related := by
  intro source other both
  simp only [toOption_bind, agrees both]

theorem readAll_eq_mapM (element : Decoder α) (sources : List Source) :
    readAll element sources = sources.mapM element := by
  induction sources with
  | nil => rfl
  | cons source rest ih =>
    rw [readAll, List.mapM_cons, ih]
    rfl

/-- Refusing gives no result. -/
theorem toOption_refuse (wanted : Wanted) (source : Source) :
    (source.refuse wanted : Except DecodeError α).toOption = none := by
  rw [Source.refuse, toOption_bind]
  cases source.found.toOption <;> rfl

end Decoder

/-! ## Fields -/

namespace Fields

/-- What becomes of a draft with a member that is taken in or passed over. -/
def taken {Draft : Type} (member : String → Source → Draft → Option (Except DecodeError Draft))
    (name : String) (source : Source) (draft : Draft) : Option Draft :=
  match member name source draft with
  | some result => result.toOption
  | none => some draft

/-- Fields that know some names take in members alike from related sources, and those with
    different names in either order. -/
structure Agrees (fields : Fields α) (related : Source → Source → Prop) (known : List String) :
    Prop where
  knows : fields.Knows known
  member : ∀ {source other : Source} (name : String) (draft : fields.Draft),
    related source other →
      taken fields.member name source draft = taken fields.member name other draft
  element : ∀ {source other : Source} (position : Nat) (draft : fields.Draft),
    related source other →
      (fields.element position source draft).toOption =
        (fields.element position other draft).toOption
  commute : ∀ {name other : String} (source another : Source) (draft : fields.Draft),
    name ≠ other →
      (taken fields.member name source draft).bind (taken fields.member other another) =
        (taken fields.member other another draft).bind (taken fields.member name source)

/-! ## Single fields -/

theorem taken_field_of_ne {name key : String} (different : key ≠ name) (decoder : Decoder α)
    (default : Option α) (source : Source) (draft : Option α) :
    taken (field name decoder default).member key source draft = some draft := by
  simp only [taken, field, if_neg different]

theorem agrees_field {decoder : Decoder α} (agrees : decoder.Agrees related) (name : String)
    (default : Option α) : (field name decoder default).Agrees related [name] where
  knows := knows_field name decoder default
  member {source other} key draft both := by
    by_cases here : key = name
    · cases draft with
      | some value => simp only [taken, field, if_pos here]
      | none => simp only [taken, field, if_pos here, toOption_map, agrees both]
    · exact (taken_field_of_ne here _ _ _ draft).trans (taken_field_of_ne here _ _ _ draft).symm
  element position draft both := by
    simp only [field, toOption_map, agrees both]
  commute {key other} source another draft different := by
    -- At most one of the two members is taken in.
    by_cases here : key = name
    · have elsewhere : other ≠ name := here ▸ different.symm
      have passed : taken (field name decoder default).member other another = some :=
        funext fun draft => taken_field_of_ne elsewhere _ _ _ draft
      rw [passed]
      exact Option.bind_fun_some _
    · have passed : taken (field name decoder default).member key source = some :=
        funext fun draft => taken_field_of_ne here _ _ _ draft
      rw [passed]
      exact (Option.bind_fun_some _).symm

/-! ## Fields side by side -/

theorem taken_and {first : Fields α} {second : Fields β} {left : List String}
    (knows : first.Knows left) (name : String) (source : Source)
    (draft : first.Draft × second.Draft) :
    taken (first.and second).member name source draft =
      if name ∈ left then
        (taken first.member name source draft.1).map fun changed => (changed, draft.2)
      else (taken second.member name source draft.2).map fun changed => (draft.1, changed) := by
  by_cases mine : name ∈ left
  · obtain ⟨result, found⟩ := knows.member_eq_some mine source draft.1
    rw [if_pos mine]
    simp only [taken, Fields.and, found, toOption_map]
  · have passed := knows.member_eq_none mine source draft.1
    rw [if_neg mine]
    simp only [taken, Fields.and, passed]
    cases second.member name source draft.2 with
    | none => rfl
    | some result => exact toOption_map result _

/-- Steps that change one part of a pair each commute if those of each part do. -/
theorem commute_beside {left : List String} {δ ε : Type}
    {step : String → Source → δ × ε → Option (δ × ε)} {one : String → Source → δ → Option δ}
    {two : String → Source → ε → Option ε}
    (whole : ∀ name source draft, step name source draft =
      if name ∈ left then (one name source draft.1).map fun changed => (changed, draft.2)
      else (two name source draft.2).map fun changed => (draft.1, changed))
    (oneCommutes : ∀ {name other : String} (source another : Source) (draft : δ), name ≠ other →
      (one name source draft).bind (one other another) =
        (one other another draft).bind (one name source))
    (twoCommutes : ∀ {name other : String} (source another : Source) (draft : ε), name ≠ other →
      (two name source draft).bind (two other another) =
        (two other another draft).bind (two name source))
    {name other : String} (source another : Source) (draft : δ × ε) (different : name ≠ other) :
    (step name source draft).bind (step other another) =
      (step other another draft).bind (step name source) := by
  obtain ⟨a, b⟩ := draft
  have steps : ∀ key source, step key source = fun draft => _ :=
    fun key source => funext (whole key source)
  rw [steps, steps]
  by_cases mine : name ∈ left <;> by_cases also : other ∈ left <;>
    simp only [mine, also, if_true, if_false]
  · have commuted := congrArg (Option.map fun a => (a, b)) (oneCommutes source another a different)
    simpa only [Option.map_bind, Option.bind_map, Function.comp_def] using commuted
  · cases first : one name source a <;> cases second : two other another b <;> simp [first, second]
  · cases first : two name source b <;> cases second : one other another a <;> simp [first, second]
  · have commuted := congrArg (Option.map fun b => (a, b)) (twoCommutes source another b different)
    simpa only [Option.map_bind, Option.bind_map, Function.comp_def] using commuted

theorem element_and (first : Fields α) (second : Fields β) (position : Nat) (source : Source)
    (draft : first.Draft × second.Draft) :
    ((first.and second).element position source draft).toOption =
      if position < first.count then
        (first.element position source draft.1).toOption.map fun changed => (changed, draft.2)
      else (second.element (position - first.count) source draft.2).toOption.map fun changed =>
        (draft.1, changed) := by
  unfold Fields.and
  simp only
  split
  · exact toOption_map _ _
  · exact toOption_map _ _

theorem Agrees.and {first : Fields α} {second : Fields β} {left right : List String}
    (one : first.Agrees related left) (two : second.Agrees related right) :
    (first.and second).Agrees related (left ++ right) where
  knows := knows_and one.knows two.knows
  member := by
    rintro source other name ⟨a, b⟩ both
    rw [taken_and one.knows, taken_and one.knows, one.member _ _ both, two.member _ _ both]
  element := by
    rintro source other position ⟨a, b⟩ both
    rw [element_and, element_and, one.element _ _ both, two.element _ _ both]
  commute source another draft different :=
    commute_beside (taken_and one.knows) one.commute two.commute source another draft different

theorem Agrees.map {fields : Fields α} {known : List String} (agrees : fields.Agrees related known)
    (build : α → β) : (fields.map build).Agrees related known where
  knows := agrees.knows
  member name draft both := agrees.member name draft both
  element position draft both := agrees.element position draft both
  commute source another draft different := agrees.commute source another draft different

/-- A list that holds fields by position is read alike from related sources. -/
theorem Agrees.readElements {fields : Fields α} {known : List String}
    (agrees : fields.Agrees related known) {sources others : List Source}
    (both : List.Forall₂ related sources others) (position : Nat) (draft : fields.Draft) :
    (fields.readElements position sources draft).toOption =
      (fields.readElements position others draft).toOption := by
  induction both generalizing position draft with
  | nil => rfl
  | cons head tail ih =>
    simp only [Fields.readElements, toOption_bind, agrees.element _ _ head, ih]

/-- Nothing may be left over behind the last field. -/
theorem toOption_closeList (count : Nat) (elements : List Source) :
    (closeList count elements .closed).toOption =
      if elements.length ≤ count then some () else none := by
  unfold closeList
  split
  · next left =>
    rw [if_neg fun short => by rw [List.drop_eq_nil_of_le short] at left; cases left]
    rfl
  · next none =>
    rw [if_pos (List.drop_eq_nil_iff.mp none)]
    rfl

/-! ## Tags -/

section
variable {κ : Type} (tag : String) (readTag : Decoder κ) (source : Source)
  (rest : List (Except Fault String × Source))

theorem readTagged_cons_tag :
    readTagged tag readTag ((.ok tag, source) :: rest) none =
      readTag source >>= fun kind => readTagged tag readTag rest (some kind) := by
  rw [readTagged]
  exact if_pos rfl

theorem readTagged_cons_again (kind : κ) :
    readTagged tag readTag ((.ok tag, source) :: rest) (some kind) =
      .error (.duplicateField tag) := by
  rw [readTagged]
  exact if_pos rfl

theorem readTagged_cons_other {name : String} (different : name ≠ tag) (seen : Option κ) :
    readTagged tag readTag ((.ok name, source) :: rest) seen =
      source.read >>= fun value => readTagged tag readTag rest seen >>= fun parts =>
        .ok (parts.1, (name, value) :: parts.2) := by
  cases seen with
  | none =>
    rw [readTagged]
    exact if_neg different
  | some kind =>
    rw [readTagged]
    exact if_neg different

end

section
variable {κ : Type} {tag : String} {readTag : Decoder κ} {name : String} {source : Source}

/-- A tagged object has its tag and the other members. -/
theorem toOption_tagged_object {members : List (Except Fault String × Source)}
    (opened : source.opened (.tagged name) = .ok (.object members .closed)) :
    (tagged name tag readTag source).toOption =
      (readTagged tag readTag members none).toOption.bind fun parts =>
        parts.1.map fun kind => (kind, .object parts.2) := by
  have raised : raise ObjectEnd.closed.reading? = .ok () := rfl
  simp only [tagged, opened, raised, toOption_bind, toOption_ok, Option.bind_some]
  refine congrArg _ (funext fun parts => ?_)
  cases parts.1 <;> rfl

/-- A tagged list has its tag in front. -/
theorem toOption_tagged_list {first : Source} {rest : List Source}
    (opened : source.opened (.tagged name) = .ok (.list (first :: rest) .closed)) :
    (tagged name tag readTag source).toOption =
      (readTag first).toOption.bind fun kind =>
        (Decoder.readAll Source.read rest).toOption.map fun values => (kind, .list values) := by
  have raised : raise ListEnd.closed.reading? = .ok () := rfl
  simp only [tagged, opened, raised, toOption_bind, toOption_ok, Option.bind_some]
  refine congrArg _ (funext fun kind => ?_)
  cases Decoder.readAll Source.read rest <;> rfl

theorem toOption_tagged_nil (opened : source.opened (.tagged name) = .ok (.list [] .closed)) :
    (tagged name tag readTag source).toOption = none := by
  rw [tagged, opened]
  rfl

theorem toOption_tagged_error {error : DecodeError}
    (opened : source.opened (.tagged name) = .error error) :
    (tagged name tag readTag source).toOption = none := by
  rw [tagged, opened]
  rfl

end

end Fields
end OperatorGen.Json
