import OperatorGen.Json.DecodeError
import OperatorGen.Json.Tree

/-!
# Sources of values

A decoder takes a value from where it stands in a text, or from a value that has been read
before. Both are a `Source`. The difference shows in errors: a text can be faulty, and it
limits how deep values nest. `opened` goes inside a list or an object.
-/
namespace OperatorGen.Json

/-- Where a decoder takes a value from. -/
inductive Source where
  /-- A place in a text, with room for so many nested lists and objects. -/
  | text (room : Nat) (tree : Tree)
  /-- A value that has been read before. -/
  | value (value : Value)
  deriving Inhabited

/-- A list or an object, with a source for each part. -/
inductive Opened where
  | list (elements : List Source) (ending : ListEnd)
  | object (members : List (Except Fault String × Source)) (ending : ObjectEnd)
  deriving Inhabited

/-- A reader of sources. -/
abbrev Decoder (α : Type) : Type :=
  Source → Except DecodeError α

/-- A fault of a text is an error of decoding. -/
def ofFault {α : Type} (result : Except Fault α) : Except DecodeError α :=
  result.mapError .fault

/-- Stops with a fault if there is one. -/
def raise (fault : Option Fault) : Except DecodeError Unit :=
  ofFault (Tree.raise fault)

namespace Source

/-- What stands in the place of the value. -/
def found : Source → Except DecodeError Found
  | text _ tree => ofFault tree.found
  | value known => .ok known.found

def read : Decoder Value
  | text room tree => ofFault (tree.value room)
  | value known => .ok known

def skip : Source → Except DecodeError Unit
  | text _ tree => ofFault tree.skip
  | value _ => .ok ()

/-- Refuses what stands in the place of the value. -/
def refuse {α : Type} (wanted : Wanted) (source : Source) : Except DecodeError α := do
  let found ← source.found
  .error (.wrongType found wanted)

def openedObject (wanted : Wanted) :
    Source → Except DecodeError (List (Except Fault String × Source) × ObjectEnd)
  | text room (.object members ending) => do
    let inner ← ofFault (Tree.enter room)
    .ok (members.map fun member => (member.1, text inner member.2), ending)
  | value (.object members) =>
    .ok (members.map fun member => (.ok member.1, value member.2), .closed)
  | source => source.refuse wanted

def openedList (wanted : Wanted) : Source → Except DecodeError (List Source × ListEnd)
  | text room (.list elements ending) => do
    let inner ← ofFault (Tree.enter room)
    .ok (elements.map (text inner), ending)
  | value (.list elements) => .ok (elements.map value, .closed)
  | source => source.refuse wanted

def opened (wanted : Wanted) (source : Source) : Except DecodeError Opened :=
  match source with
  | text _ (.list _ _) | value (.list _) => do
    let (elements, ending) ← source.openedList wanted
    .ok (.list elements ending)
  | source => do
    let (members, ending) ← source.openedObject wanted
    .ok (.object members ending)

/-- The error for a source that is left over after the last element wanted: a text goes on
    where it should end, and a list that has been read is too long. -/
def leftOver (length count : Nat) : Source → DecodeError
  | text _ _ => .fault .trailingCharacters
  | value _ => .wrongLength length (.listOf count)

end Source
end OperatorGen.Json
