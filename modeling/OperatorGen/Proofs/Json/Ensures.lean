import OperatorGen.Json.Record
import OperatorGen.Proofs.FirstError
import OperatorGen.Proofs.Json.Reading

/-!
# What decoders ensure

A decoder ensures a property if every result that it gives has it, from sources of some sort
(`Decoder.Ensures`). Fields ensure a property of a record by one of their drafts, which holds
at the start and is kept by each member and each element (`Fields.Keeps`), so it does not
matter whether a record is written by name or by position, or in which order.
-/
namespace OperatorGen.Json

namespace Source

/-- Any source. -/
def Any (_ : Source) : Prop := True

/-- A place in a text with some room, where all whole numbers are in range. -/
inductive InText (room : Nat) : Source → Prop
  | intro {tree : Tree} (inRange : tree.InRange) : InText room (.text room tree)

/-- What is inside of sources of one sort is of another. -/
structure Opens (outer inner : Source → Prop) : Prop where
  object : ∀ {source : Source} {wanted : Wanted} {members : List (Except Fault String × Source)}
    {ending : ObjectEnd}, outer source → source.openedObject wanted = .ok (members, ending) →
      ∀ member ∈ members, inner member.2
  list : ∀ {source : Source} {wanted : Wanted} {elements : List Source} {ending : ListEnd},
    outer source → source.openedList wanted = .ok (elements, ending) →
      ∀ element ∈ elements, inner element

theorem opens_any : Opens Any Any where
  object _ _ _ _ := trivial
  list _ _ _ _ := trivial

theorem eq_of_enter {room inner : Nat} (entered : Tree.enter (room + 1) = .ok inner) :
    inner = room := by
  obtain ⟨below, same, rfl⟩ := Tree.enter_ok_iff.mp entered
  omega

theorem opens_inText (room : Nat) : Opens (InText (room + 1)) (InText room) where
  object := by
    rintro source wanted members ending ⟨inRange⟩ opened member inside
    cases inRange with
    | object _ each =>
      simp only [openedObject, bind_ok_iff, ofFault, mapError_ok_iff] at opened
      obtain ⟨inner, entered, same⟩ := opened
      obtain rfl := eq_of_enter entered
      cases same
      obtain ⟨tree, among, rfl⟩ := List.mem_map.mp inside
      exact ⟨each tree among⟩
    | _ =>
      simp only [openedObject, refuse, bind_ok_iff] at opened
      obtain ⟨_, -, same⟩ := opened
      cases same
  list := by
    rintro source wanted elements ending ⟨inRange⟩ opened element inside
    cases inRange with
    | list _ each =>
      simp only [openedList, bind_ok_iff, ofFault, mapError_ok_iff] at opened
      obtain ⟨inner, entered, same⟩ := opened
      obtain rfl := eq_of_enter entered
      cases same
      obtain ⟨tree, among, rfl⟩ := List.mem_map.mp inside
      exact ⟨each tree among⟩
    | _ =>
      simp only [openedList, refuse, bind_ok_iff] at opened
      obtain ⟨_, -, same⟩ := opened
      cases same

/-- What is opened is an object or a list. -/
theorem opened_ok {source : Source} {wanted : Wanted} {parts : Opened}
    (opened : source.opened wanted = .ok parts) :
    (∃ members ending, parts = .object members ending ∧
        source.openedObject wanted = .ok (members, ending)) ∨
      ∃ elements ending, parts = .list elements ending ∧
        source.openedList wanted = .ok (elements, ending) := by
  unfold Source.opened at opened
  split at opened
  all_goals
    obtain ⟨⟨inside, ending⟩, found, same⟩ := bind_ok_iff.mp opened
    cases same
  · exact .inr ⟨inside, ending, rfl, found⟩
  · exact .inr ⟨inside, ending, rfl, found⟩
  · exact .inl ⟨inside, ending, rfl, found⟩

end Source

open Source (Any InText Opens)

variable {α β : Type} {among outer inner : Source → Prop}

/-! ## Decoders -/

/-- Every result that a decoder gives from sources of some sort has a property. -/
def Decoder.Ensures (decoder : Decoder α) (among : Source → Prop) (holds : α → Prop) : Prop :=
  ∀ source a, among source → decoder source = .ok a → holds a

namespace Decoder.Ensures

variable {decoder : Decoder α} {holds : α → Prop} {wanted : β → Prop}

theorem map (ensures : decoder.Ensures among holds) {build : α → β}
    (built : ∀ a, holds a → wanted (build a)) :
    Decoder.Ensures (fun source => (decoder source).map build) among wanted := by
  intro source b member result
  obtain ⟨a, found, rfl⟩ := map_ok_iff.mp result
  exact built a (ensures source a member found)

theorem anywhere (ensures : decoder.Ensures Any holds) (among : Source → Prop) :
    decoder.Ensures among holds :=
  fun source a _ => ensures source a trivial

theorem readAll (ensures : decoder.Ensures among holds) {sources : List Source} {results : List α}
    (members : ∀ source ∈ sources, among source)
    (result : Decoder.readAll decoder sources = .ok results) : ∀ a ∈ results, holds a := by
  induction sources generalizing results with
  | nil =>
    cases result
    exact nofun
  | cons source rest ih =>
    simp only [Decoder.readAll, bind_ok_iff] at result
    obtain ⟨first, found, others, later, same⟩ := result
    cases same
    obtain ⟨here, behind⟩ := List.forall_mem_cons.mp members
    exact List.forall_mem_cons.mpr ⟨ensures source first here found, ih behind later⟩

theorem list (opens : Opens outer inner) (ensures : decoder.Ensures inner holds) :
    (Decoder.list decoder).Ensures outer fun results => ∀ a ∈ results, holds a := by
  intro source results member result
  simp only [Decoder.list, bind_ok_iff] at result
  obtain ⟨⟨elements, ending⟩, opened, values, found, _, -, same⟩ := result
  cases same
  exact ensures.readAll (opens.list member opened) found

/-- What a text denotes has what the decoder ensures. -/
theorem decode (ensures : decoder.Ensures (InText Tree.roomInText) holds) {text : String} {a : α}
    (decoded : decoder.decode text = .ok a) : holds a := by
  have inRange := Tree.inRange_ofText text
  unfold Decoder.decode at decoded
  generalize Tree.ofText text = parsed at decoded inRange
  obtain ⟨tree, more⟩ := parsed
  obtain ⟨value, found, done⟩ := bind_ok_iff.mp decoded
  cases more with
  | true => cases done
  | false =>
    cases done
    exact ensures _ _ ⟨inRange⟩ found

end Decoder.Ensures

theorem Decoder.mem_of_named {known : List (String × α)} {name : String} {a : α}
    (named : Decoder.named known name = .ok a) : (name, a) ∈ known := by
  unfold Decoder.named at named
  split at named
  · next entry found =>
    cases named
    have same := List.find?_some found
    rw [← of_decide_eq_true same]
    exact List.mem_of_find?_eq_some found
  · cases named

/-- What a name stands for is among what is known. -/
theorem Decoder.ensures_variant (known : List (String × α)) :
    (Decoder.variant known).Ensures among fun a => ∃ name, (name, a) ∈ known := by
  intro source a _ read
  obtain ⟨found, -, read⟩ := bind_ok_iff.mp read
  split at read
  · next name => exact ⟨name, mem_of_named read⟩
  · cases read

/-- A value that is read nests within the room, with whole numbers in range, and it is
    sorted. -/
theorem Decoder.ensures_value (room : Nat) :
    Decoder.value.Ensures (InText room) fun v =>
      Value.Within Number.InRange room v ∧ v.sorted = v := by
  rintro source v ⟨inRange⟩ result
  simp only [Decoder.value, Source.read, bind_ok_iff, ofFault, mapError_ok_iff] at result
  obtain ⟨read, found, same⟩ := result
  cases same
  have within := Tree.within_of_value inRange found
  exact ⟨within.sorted, within.sorted_sorted⟩

/-! ## Fields -/

namespace Fields

/-- A property of drafts that fields start with and keep, and that gives one of the record. -/
structure Keeps (fields : Fields α) (among : Source → Prop) (drafted : fields.Draft → Prop)
    (holds : α → Prop) : Prop where
  start : drafted fields.start
  member : ∀ {key source draft changed}, among source → drafted draft →
    fields.member key source draft = some (.ok changed) → drafted changed
  element : ∀ {position source draft changed}, among source → drafted draft →
    fields.element position source draft = .ok changed → drafted changed
  finish : ∀ {missing offset draft a}, drafted draft →
    fields.finish missing offset draft = .ok a → holds a

/-- Every record that fields build from sources of some sort has a property. -/
def Ensures (fields : Fields α) (among : Source → Prop) (holds : α → Prop) : Prop :=
  ∃ drafted, fields.Keeps among drafted holds

theorem ensures_true (fields : Fields α) (among : Source → Prop) :
    fields.Ensures among fun _ => True :=
  ⟨fun _ => True, ⟨trivial, fun _ _ _ => trivial, fun _ _ _ => trivial, fun _ _ => trivial⟩⟩

theorem ensures_field {name : String} {decoder : Decoder α} {default : Option α}
    {holds : α → Prop} (ensures : decoder.Ensures among holds)
    (initial : ∀ a, default = some a → holds a) :
    (field name decoder default).Ensures among holds := by
  refine ⟨fun draft : Option α => ∀ a, draft = some a → holds a, ?_⟩
  have taken : ∀ {source : Source} {changed : Option α}, among source →
      (decoder source).map some = .ok changed → ∀ a, changed = some a → holds a := by
    intro source changed member result a same
    obtain ⟨b, found, rfl⟩ := map_ok_iff.mp result
    cases same
    exact ensures source _ member found
  constructor
  case start => exact nofun
  case member =>
    intro key source draft changed member _ result
    cases draft <;> simp only [field] at result <;> split at result
    · exact taken member (Option.some.inj result)
    all_goals cases result
  case element => exact fun member _ result => taken member result
  case finish =>
    intro missing offset draft a drafted result
    cases draft with
    | some value =>
      cases result
      exact drafted _ rfl
    | none =>
      cases default with
      | some value =>
        cases result
        exact initial _ rfl
      | none => cases result

variable {fields : Fields α} {holds : α → Prop} {other : Fields β} {wanted : β → Prop}

theorem Ensures.imp (ensures : fields.Ensures among holds) {weaker : α → Prop}
    (implied : ∀ a, holds a → weaker a) : fields.Ensures among weaker := by
  obtain ⟨drafted, keeps⟩ := ensures
  exact ⟨drafted, keeps.start, keeps.member, keeps.element,
    fun kept done => implied _ (keeps.finish kept done)⟩

theorem Ensures.and (first : fields.Ensures among holds) (second : other.Ensures among wanted) :
    (fields.and other).Ensures among fun ab => holds ab.1 ∧ wanted ab.2 := by
  obtain ⟨drafted, keeps⟩ := first
  obtain ⟨noted, holdsOn⟩ := second
  refine ⟨fun draft : fields.Draft × other.Draft => drafted draft.1 ∧ noted draft.2, ?_⟩
  constructor
  case start => exact ⟨keeps.start, holdsOn.start⟩
  case member =>
    rintro key source ⟨a, b⟩ changed member ⟨left, right⟩ result
    cases taken : fields.member key source a with
    | some found =>
      simp only [Fields.and, taken, Option.some.injEq] at result
      obtain ⟨next, rfl, rfl⟩ := map_ok_iff.mp result
      exact ⟨keeps.member member left taken, right⟩
    | none =>
      simp only [Fields.and, taken, Option.map_eq_some_iff] at result
      obtain ⟨found, behind, passed⟩ := result
      obtain ⟨next, rfl, rfl⟩ := map_ok_iff.mp passed
      exact ⟨left, holdsOn.member member right behind⟩
  case element =>
    rintro position source ⟨a, b⟩ changed member ⟨left, right⟩ result
    simp only [Fields.and] at result
    split at result
    · obtain ⟨next, found, rfl⟩ := map_ok_iff.mp result
      exact ⟨keeps.element member left found, right⟩
    · obtain ⟨next, found, rfl⟩ := map_ok_iff.mp result
      exact ⟨left, holdsOn.element member right found⟩
  case finish =>
    rintro missing offset ⟨a, b⟩ record ⟨left, right⟩ result
    simp only [Fields.and, bind_ok_iff] at result
    obtain ⟨x, first, y, second, same⟩ := result
    cases same
    exact ⟨keeps.finish left first, holdsOn.finish right second⟩

theorem Ensures.map (ensures : fields.Ensures among holds) {build : α → β}
    (built : ∀ a, holds a → wanted (build a)) : (fields.map build).Ensures among wanted := by
  obtain ⟨drafted, keeps⟩ := ensures
  refine ⟨drafted, keeps.start, keeps.member, keeps.element, ?_⟩
  intro missing offset draft b kept result
  obtain ⟨a, found, rfl⟩ := map_ok_iff.mp result
  exact built a (keeps.finish kept found)

theorem Keeps.readMembers {drafted : fields.Draft → Prop} (keeps : fields.Keeps among drafted holds)
    {members : List (Except Fault String × Source)} (inside : ∀ member ∈ members, among member.2)
    {draft changed : fields.Draft} (kept : drafted draft)
    (result : fields.readMembers members draft = .ok changed) : drafted changed := by
  induction members generalizing draft with
  | nil =>
    cases result
    exact kept
  | cons member rest ih =>
    obtain ⟨name, source⟩ := member
    obtain ⟨here, later⟩ := List.forall_mem_cons.mp inside
    simp only [Fields.readMembers, bind_ok_iff] at result
    obtain ⟨known, -, result⟩ := result
    split at result
    · next taken =>
      obtain ⟨next, rfl, rest⟩ := bind_ok_iff.mp result
      exact ih later (keeps.member here kept taken) rest
    · obtain ⟨_, -, rest⟩ := bind_ok_iff.mp result
      exact ih later kept rest

theorem Keeps.readElements {drafted : fields.Draft → Prop}
    (keeps : fields.Keeps among drafted holds) {elements : List Source}
    (inside : ∀ element ∈ elements, among element) {position : Nat} {draft changed : fields.Draft}
    (kept : drafted draft) (result : fields.readElements position elements draft = .ok changed) :
    drafted changed := by
  induction elements generalizing position draft with
  | nil =>
    cases result
    exact kept
  | cons source rest ih =>
    obtain ⟨here, later⟩ := List.forall_mem_cons.mp inside
    simp only [Fields.readElements, bind_ok_iff] at result
    obtain ⟨next, found, rest⟩ := result
    exact ih later (keeps.element here kept found) rest

/-- A record has what its fields ensure. -/
theorem Ensures.record (opens : Opens outer inner) (ensures : fields.Ensures inner holds)
    (name : String) : (fields.record name).Ensures outer holds := by
  obtain ⟨drafted, keeps⟩ := ensures
  intro source a member result
  obtain ⟨parts, found, result⟩ := bind_ok_iff.mp result
  rcases Source.opened_ok found with ⟨members, ending, rfl, opened⟩ | ⟨elements, ending, rfl, opened⟩
  · simp only [bind_ok_iff] at result
    obtain ⟨draft, read, _, -, done⟩ := result
    exact keeps.finish (keeps.readMembers (opens.object member opened) keeps.start read) done
  · have each := opens.list member opened
    simp only [bind_ok_iff] at result
    obtain ⟨draft, read, result⟩ := result
    have kept : drafted draft := keeps.readElements
      (fun element inside => each element (List.mem_of_mem_take inside)) keeps.start read
    split at result
    · obtain ⟨_, -, done⟩ := bind_ok_iff.mp result
      exact keeps.finish kept done
    · simp only [bind_ok_iff] at result
      obtain ⟨value, done, _, -, same⟩ := result
      cases same
      exact keeps.finish kept done

theorem Keeps.readParts {drafted : fields.Draft → Prop} (keeps : fields.Keeps among drafted holds)
    {members : List (Except Fault String × Source)} (inside : ∀ member ∈ members, among member.2)
    {draft changed : fields.Draft} {others : List (String × Value)} (kept : drafted draft)
    (result : fields.readParts members draft = .ok (changed, others)) : drafted changed := by
  induction members generalizing draft others with
  | nil =>
    cases result
    exact kept
  | cons member rest ih =>
    obtain ⟨name, source⟩ := member
    obtain ⟨here, later⟩ := List.forall_mem_cons.mp inside
    simp only [Fields.readParts, bind_ok_iff] at result
    obtain ⟨known, -, result⟩ := result
    split at result
    · next taken =>
      obtain ⟨next, rfl, rest⟩ := bind_ok_iff.mp result
      exact ih later (keeps.member here kept taken) rest
    · simp only [bind_ok_iff] at result
      obtain ⟨value, -, ⟨next, collected⟩, rest, same⟩ := result
      cases same
      exact ih later kept rest

/-- A record with a part has what its own fields ensure, beside what the part has. -/
theorem Ensures.flattened (opens : Opens outer inner) (ensures : fields.Ensures inner holds)
    {part : List (String × Value) → Except DecodeError β}
    (partHolds : ∀ members b, part members = .ok b → wanted b) (name : String) :
    (fields.flattened name part).Ensures outer fun ab => holds ab.1 ∧ wanted ab.2 := by
  obtain ⟨drafted, keeps⟩ := ensures
  intro source ab member result
  simp only [Fields.flattened, bind_ok_iff] at result
  obtain ⟨⟨members, ending⟩, opened, ⟨draft, others⟩, read, _, -, a, done, b, found, same⟩ := result
  cases same
  exact ⟨keeps.finish (keeps.readParts (opens.object member opened) keeps.start read) done,
    partHolds others b found⟩

/-! ## Tags -/

theorem readTagged_ensures {tag : String} {readTag : Decoder α}
    (ensures : readTag.Ensures Any holds) {members : List (Except Fault String × Source)}
    {seen kind : Option α} {others : List (String × Value)}
    (before : ∀ a, seen = some a → holds a)
    (result : readTagged tag readTag members seen = .ok (kind, others)) :
    ∀ a, kind = some a → holds a := by
  induction members generalizing seen others with
  | nil =>
    cases result
    exact before
  | cons member rest ih =>
    obtain ⟨name, source⟩ := member
    simp only [readTagged, bind_ok_iff] at result
    obtain ⟨known, -, result⟩ := result
    split at result
    · cases seen with
      | some _ => cases result
      | none =>
        obtain ⟨found, read, rest⟩ := bind_ok_iff.mp result
        refine ih (fun a same => ?_) rest
        cases same
        exact ensures source _ trivial read
    · simp only [bind_ok_iff] at result
      obtain ⟨value, -, ⟨next, collected⟩, rest, same⟩ := result
      cases same
      exact ih before rest

/-- The tag of a value has what its decoder ensures. -/
theorem ensures_tagged {readTag : Decoder α} (ensures : readTag.Ensures Any holds)
    (name tag : String) : (tagged name tag readTag).Ensures Any fun result => holds result.1 := by
  intro source result _ read
  obtain ⟨parts, -, read⟩ := bind_ok_iff.mp read
  split at read
  · simp only [bind_ok_iff] at read
    obtain ⟨⟨seen, others⟩, found, _, -, read⟩ := read
    split at read
    · next kind same =>
      cases read
      refine readTagged_ensures ensures ?_ found _ same
      exact nofun
    · cases read
  · simp only [bind_ok_iff] at read
    obtain ⟨_, -, same⟩ := read
    cases same
  · simp only [bind_ok_iff] at read
    obtain ⟨kind, found, _, -, _, -, same⟩ := read
    cases same
    exact ensures _ _ trivial found

end Fields
end OperatorGen.Json
