import OperatorGen.Json.Number
import OperatorGen.Json.Text

/-!
# JSON values

A value keeps the members of an object in the order in which they were written, repeated
names included. `sorted` gives the one object that such members denote when the last of
several equal names counts: its names are in increasing order, each once. `write` is the
text of a value without any blanks.
-/
namespace OperatorGen.Json

/-- A JSON value; the members of an object are listed as written. -/
inductive Value where
  | null
  | boolean (value : Bool)
  | number (value : Number)
  | text (value : String)
  | list (elements : List Value)
  | object (members : List (String × Value))
  deriving Repr, Inhabited

/-- What a reader meets in the place of a value, without what is inside. -/
inductive Found where
  | null
  | boolean (value : Bool)
  | number (value : Number)
  | text (value : String)
  | list
  | object
  deriving DecidableEq, Repr, Inhabited

namespace Value

def found : Value → Found
  | null => .null
  | boolean value => .boolean value
  | number value => .number value
  | text value => .text value
  | list _ => .list
  | object _ => .object

/-! ## Members -/

/-- The first member with a name. -/
def lookup? (name : String) : List (String × Value) → Option Value
  | [] => none
  | (key, value) :: rest => if key = name then some value else lookup? name rest

/-- The member of an object with a name. -/
def member? (name : String) : Value → Option Value
  | object members => lookup? name members
  | _ => none

/-- Puts a member in its place among members in increasing order of their names, instead of
    one with the same name. -/
def insertMember (name : String) (value : Value) :
    List (String × Value) → List (String × Value)
  | [] => [(name, value)]
  | (key, old) :: rest =>
    if name < key then (name, value) :: (key, old) :: rest
    else if name = key then (name, value) :: rest
    else (key, old) :: insertMember name value rest

/-- Members in increasing order of their names; the last of several equal names counts. -/
def sortMembers (members : List (String × Value)) : List (String × Value) :=
  members.foldl (fun placed member => insertMember member.1 member.2 placed) []

mutual

/-- The value with the members of every object in increasing order, each name once. -/
def sorted : Value → Value
  | list elements => list (sortedList elements)
  | object members => object (sortMembers (sortedMembers members))
  | other => other

def sortedList : List Value → List Value
  | [] => []
  | element :: rest => sorted element :: sortedList rest

/-- Every member's value sorted, the members in the order as given. -/
def sortedMembers : List (String × Value) → List (String × Value)
  | [] => []
  | (name, value) :: rest => (name, sorted value) :: sortedMembers rest

end

/-! ## Writing -/

mutual

def write : Value → String
  | null => "null"
  | boolean true => "true"
  | boolean false => "false"
  | number value => value.text
  | text value => Text.quote value
  | list elements => "[" ++ writeList elements ++ "]"
  | object members => "\x7b" ++ writeMembers members ++ "\x7d"

/-- Elements with commas between them. -/
def writeList : List Value → String
  | [] => ""
  | [element] => write element
  | element :: rest => write element ++ "," ++ writeList rest

/-- Members with commas between them. -/
def writeMembers : List (String × Value) → String
  | [] => ""
  | [(name, value)] => Text.quote name ++ ":" ++ write value
  | (name, value) :: rest => Text.quote name ++ ":" ++ write value ++ "," ++ writeMembers rest

end

end Value
end OperatorGen.Json
