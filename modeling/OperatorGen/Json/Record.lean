import OperatorGen.Json.Decoder

/-!
# Records

A record is put together from members that come one at a time, in any order. `Fields` says
how: it has a draft that takes in members by name, or elements by position, and it turns a
draft into a record when all has been seen. `Fields.field` is one field, `Fields.and` puts
two sets of fields side by side, and `Fields.map` builds the record. A record is then read
from an object or from a list of its fields (`record`), or from an object whose other
members belong to a part of the record (`flattened`).
-/
namespace OperatorGen.Json

/-- How to put a record together. -/
structure Fields (α : Type) where
  /-- What has been seen of the record. -/
  Draft : Type
  /-- Nothing has been seen. -/
  start : Draft
  count : Nat
  /-- Takes in a member, if a field has its name. -/
  member : String → Source → Draft → Option (Except DecodeError Draft)
  /-- Takes in the element at a position. -/
  element : Nat → Source → Draft → Except DecodeError Draft
  /-- The record, once all has been seen. A field that must be there and is not is reported
      by its position, counted from an offset, and its name. -/
  finish : (missing : Nat → String → DecodeError) → (offset : Nat) → Draft →
    Except DecodeError α

namespace Fields

/-! ## Building -/

/-- One field; without a default it must be there. -/
def field {α : Type} (name : String) (decoder : Decoder α) (default : Option α) : Fields α where
  Draft := Option α
  start := none
  count := 1
  member key source draft :=
    if key = name then
      match draft with
      | some _ => some (.error (.duplicateField name))
      | none => some ((decoder source).map some)
    else none
  element _ source _ := (decoder source).map some
  finish missing offset draft :=
    match draft, default with
    | some value, _ => .ok value
    | none, some value => .ok value
    | none, none => .error (missing offset name)

def required {α : Type} (name : String) (decoder : Decoder α) : Fields α :=
  field name decoder none

def optional {α : Type} (name : String) (decoder : Decoder α) (default : α) : Fields α :=
  field name decoder (some default)

def and {α β : Type} (first : Fields α) (second : Fields β) : Fields (α × β) where
  Draft := first.Draft × second.Draft
  start := (first.start, second.start)
  count := first.count + second.count
  member key source draft :=
    match first.member key source draft.1 with
    | some result => some (result.map fun changed => (changed, draft.2))
    | none =>
      (second.member key source draft.2).map fun result =>
        result.map fun changed => (draft.1, changed)
  element position source draft :=
    if position < first.count then
      (first.element position source draft.1).map fun changed => (changed, draft.2)
    else
      (second.element (position - first.count) source draft.2).map fun changed =>
        (draft.1, changed)
  finish missing offset draft := do
    let a ← first.finish missing offset draft.1
    let b ← second.finish missing (offset + first.count) draft.2
    .ok (a, b)

/-- The same fields, with another record built from them. -/
def map {α β : Type} (build : α → β) (fields : Fields α) : Fields β where
  Draft := fields.Draft
  start := fields.start
  count := fields.count
  member := fields.member
  element := fields.element
  finish missing offset draft := (fields.finish missing offset draft).map build

/-! ## Reading -/

/-- Takes in the members of an object in order; one that no field has is passed over. -/
def readMembers {α : Type} (fields : Fields α) :
    List (Except Fault String × Source) → fields.Draft → Except DecodeError fields.Draft
  | [], draft => .ok draft
  | (name, source) :: rest, draft => do
    let name ← ofFault name
    match fields.member name source draft with
    | some result => do
      let changed ← result
      fields.readMembers rest changed
    | none => do
      source.skip
      fields.readMembers rest draft

/-- Takes in the elements of a list from a position on. -/
def readElements {α : Type} (fields : Fields α) :
    (position : Nat) → List Source → fields.Draft → Except DecodeError fields.Draft
  | _, [], draft => .ok draft
  | position, source :: rest, draft => do
    let changed ← fields.element position source draft
    fields.readElements (position + 1) rest changed

/-- The record that a draft is, when the fields were given by name. -/
def finishMembers {α : Type} (fields : Fields α) (draft : fields.Draft) : Except DecodeError α :=
  fields.finish (fun _ name => .missingField name) 0 draft

/-- The record that a draft is, when the fields were given by position. -/
def finishElements {α : Type} (name : String) (fields : Fields α) (draft : fields.Draft) :
    Except DecodeError α :=
  fields.finish (fun position _ => .wrongLength position (.recordOf name fields.count)) 0 draft

/-- The record that members are, when all belong to it or to nothing. -/
def ofMembers {α : Type} (fields : Fields α) (members : List (String × Value)) :
    Except DecodeError α := do
  let draft ← fields.readMembers
    (members.map fun member => (.ok member.1, .value member.2)) fields.start
  fields.finishMembers draft

/-- The end of a list that holds all fields: nothing may be left over. -/
def closeList (count : Nat) (elements : List Source) (ending : ListEnd) :
    Except DecodeError Unit :=
  match elements.drop count with
  | source :: _ => .error (source.leftOver elements.length count)
  | [] => raise ending.closing?

/-- A record, read from an object or from a list of its fields in order. -/
def record {α : Type} (name : String) (fields : Fields α) : Decoder α := fun source => do
  match ← source.opened (.record name) with
  | .object members ending => do
    let draft ← fields.readMembers members fields.start
    raise ending.reading?
    fields.finishMembers draft
  | .list elements ending => do
    let draft ← fields.readElements 0 (elements.take fields.count) fields.start
    if elements.length < fields.count then do
      raise ending.reading?
      fields.finishElements name draft
    else do
      let value ← fields.finishElements name draft
      closeList fields.count elements ending
      .ok value

/-! ## Parts -/

/-- Takes in the members of an object in order, and collects the values of those that no
    field has. -/
def readParts {α : Type} (fields : Fields α) :
    List (Except Fault String × Source) → fields.Draft →
      Except DecodeError (fields.Draft × List (String × Value))
  | [], draft => .ok (draft, [])
  | (name, source) :: rest, draft => do
    let name ← ofFault name
    match fields.member name source draft with
    | some result => do
      let changed ← result
      fields.readParts rest changed
    | none => do
      let value ← source.read
      let (draft, others) ← fields.readParts rest draft
      .ok (draft, (name, value) :: others)

/-- A record with a part whose members stand beside its own: its own fields are finished
    first, and then the part is read from the other members. -/
def flattened {α β : Type} (name : String) (own : Fields α)
    (part : List (String × Value) → Except DecodeError β) : Decoder (α × β) := fun source => do
  let (members, ending) ← source.openedObject (.record name)
  let (draft, others) ← own.readParts members own.start
  raise ending.reading?
  let a ← own.finishMembers draft
  let b ← part others
  .ok (a, b)

/-! ## Tags -/

/-- Takes in the members of an object in order: the tag, and the values of the others. -/
def readTagged {κ : Type} (tag : String) (readTag : Decoder κ) :
    List (Except Fault String × Source) → Option κ →
      Except DecodeError (Option κ × List (String × Value))
  | [], seen => .ok (seen, [])
  | (name, source) :: rest, seen => do
    let name ← ofFault name
    if name = tag then
      match seen with
      | some _ => .error (.duplicateField tag)
      | none => do
        let kind ← readTag source
        readTagged tag readTag rest (some kind)
    else do
      let value ← source.read
      let (seen, others) ← readTagged tag readTag rest seen
      .ok (seen, (name, value) :: others)

/-- A value with a tag among its members, or in front of its elements: the tag, and the
    value without it. -/
def tagged {κ : Type} (name tag : String) (readTag : Decoder κ) : Decoder (κ × Value) :=
  fun source => do
    match ← source.opened (.tagged name) with
    | .object members ending => do
      let (seen, others) ← readTagged tag readTag members none
      raise ending.reading?
      match seen with
      | some kind => .ok (kind, .object others)
      | none => .error (.missingField tag)
    | .list [] ending => do
      raise ending.reading?
      .error (.missingField tag)
    | .list (first :: rest) ending => do
      let kind ← readTag first
      let values ← Decoder.readAll Source.read rest
      raise ending.reading?
      .ok (kind, .list values)

end Fields
end OperatorGen.Json
