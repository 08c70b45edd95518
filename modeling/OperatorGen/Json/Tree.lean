import OperatorGen.Json.Token

/-!
# Syntax trees of JSON text

A text is read as a tree even where it is faulty: the tree keeps what stands there up to
the first fault and says what follows. Which fault is reported depends on the reader.
A reader that wants a value reads it with a limit on nesting (`Tree.value`); a reader that
does not know a member passes over it (`Tree.skip`), which has no such limit and accepts
numbers and strings that denote nothing. `Tree.ofText` builds the tree of a whole text.
-/
namespace OperatorGen.Json

/-- What follows the last element of a list. -/
inductive ListEnd where
  | closed
  | endOfText
  /-- Something else than a comma or the bracket. -/
  | noSeparator
  /-- A comma, then the bracket. -/
  | trailingComma
  /-- A comma, then nothing. -/
  | endAfterComma
  deriving DecidableEq, Repr, Inhabited

namespace ListEnd

/-- The fault that a reader meets that asks for one more element. -/
def reading? : ListEnd → Option Fault
  | closed => none
  | endOfText => some .endInList
  | noSeparator => some .expectedListSeparator
  | trailingComma => some .trailingComma
  | endAfterComma => some .endInValue

/-- The fault that a reader meets that passes over the list. -/
def skipping? : ListEnd → Option Fault
  | closed => none
  | endOfText => some .endInList
  | noSeparator => some .expectedListSeparator
  | trailingComma => some .expectedValue
  | endAfterComma => some .endInValue

/-- The fault that a reader meets that wants the list to end here. -/
def closing? : ListEnd → Option Fault
  | closed => none
  | endOfText => some .endInList
  | noSeparator => some .trailingCharacters
  | trailingComma => some .trailingComma
  | endAfterComma => some .trailingCharacters

end ListEnd

/-- What follows the last member of an object. -/
inductive ObjectEnd where
  | closed
  | endOfText
  /-- Something else than a comma or the brace. -/
  | noSeparator
  /-- A comma, then the brace. -/
  | trailingComma
  /-- A comma, then nothing. -/
  | endAfterComma
  /-- Something else than a name where a member must begin. -/
  | noName
  /-- A name that breaks off. -/
  | brokenName (reading skipping : Fault)
  deriving DecidableEq, Repr, Inhabited

namespace ObjectEnd

/-- The fault that a reader meets that asks for one more member. -/
def reading? : ObjectEnd → Option Fault
  | closed => none
  | endOfText => some .endInObject
  | noSeparator => some .expectedObjectSeparator
  | trailingComma => some .trailingComma
  | endAfterComma => some .endInValue
  | noName => some .keyNotText
  | brokenName fault _ => some fault

/-- The fault that a reader meets that passes over the object. -/
def skipping? : ObjectEnd → Option Fault
  | closed => none
  | endOfText => some .endInObject
  | noSeparator => some .expectedObjectSeparator
  | trailingComma => some .keyNotText
  | endAfterComma => some .endInObject
  | noName => some .keyNotText
  | brokenName _ fault => some fault

end ObjectEnd

/-- The tree of a text. Numbers, strings and names are there even if they denote nothing,
    with the fault that a reader of them reports. -/
inductive Tree where
  | null
  | boolean (value : Bool)
  | number (value : Except Fault Number)
  | text (value : Except Fault String)
  | list (elements : List Tree) (ending : ListEnd)
  | object (members : List (Except Fault String × Tree)) (ending : ObjectEnd)
  | broken (reading skipping : Fault)
  /-- The text ends where a value must begin. -/
  | missing
  deriving Inhabited

namespace Tree

/-! ## Reading -/

def raise : Option Fault → Except Fault Unit
  | none => .ok ()
  | some fault => .error fault

/-- The room for nested values inside a list or an object, given the room outside. -/
def enter (room : Nat) : Except Fault Nat :=
  if room ≤ 1 then .error .tooDeep else .ok (room - 1)

/-- The nesting that a text may have: a value that is the 128th in a row of nested ones is
    too deep. -/
def roomInText : Nat := 128

mutual

/-- The value of a tree, given room for so many nested lists and objects. -/
def value (room : Nat) : Tree → Except Fault Value
  | null => .ok .null
  | boolean value => .ok (.boolean value)
  | number value => value.map .number
  | text value => value.map .text
  | list elements ending => do
    let inner ← enter room
    let values ← valueList inner elements
    raise ending.reading?
    .ok (.list values)
  | object members ending => do
    let inner ← enter room
    let values ← valueMembers inner members
    raise ending.reading?
    .ok (.object values)
  | broken fault _ => .error fault
  | missing => .error .endInValue

def valueList (room : Nat) : List Tree → Except Fault (List Value)
  | [] => .ok []
  | element :: rest => do
    let first ← value room element
    let others ← valueList room rest
    .ok (first :: others)

def valueMembers (room : Nat) :
    List (Except Fault String × Tree) → Except Fault (List (String × Value))
  | [] => .ok []
  | (name, member) :: rest => do
    let name ← name
    let first ← value room member
    let others ← valueMembers room rest
    .ok ((name, first) :: others)

end

/-! ## Passing over -/

mutual

def skip : Tree → Except Fault Unit
  | null => .ok ()
  | boolean _ => .ok ()
  | number _ => .ok ()
  | text _ => .ok ()
  | list elements ending => do
    skipList elements
    raise ending.skipping?
  | object members ending => do
    skipMembers members
    raise ending.skipping?
  | broken _ fault => .error fault
  | missing => .error .endInValue

def skipList : List Tree → Except Fault Unit
  | [] => .ok ()
  | element :: rest => do
    skip element
    skipList rest

/-- Passes over members in order; their names may denote nothing. -/
def skipMembers : List (Except Fault String × Tree) → Except Fault Unit
  | [] => .ok ()
  | (_, member) :: rest => do
    skip member
    skipMembers rest

end

def found : Tree → Except Fault Found
  | null => .ok .null
  | boolean value => .ok (.boolean value)
  | number value => value.map .number
  | text value => value.map .text
  | list _ _ => .ok .list
  | object _ _ => .ok .object
  | broken fault _ => .error fault
  | missing => .error .endInValue

/-! ## Parsing -/

/-- What follows an element, unless it is a comma with another element. -/
def afterElement : List Token → Sum (ListEnd × List Token) (List Token)
  | [] => .inl (.endOfText, [])
  | .closeList :: rest => .inl (.closed, rest)
  | [.comma] => .inl (.endAfterComma, [])
  | .comma :: .closeList :: _ => .inl (.trailingComma, [])
  | .comma :: rest => .inr rest
  | _ => .inl (.noSeparator, [])

/-- What follows a member, unless it is a comma with something that may be a member. -/
def afterMember : List Token → Sum (ObjectEnd × List Token) (List Token)
  | [] => .inl (.endOfText, [])
  | .closeObject :: rest => .inl (.closed, rest)
  | [.comma] => .inl (.endAfterComma, [])
  | .comma :: .closeObject :: _ => .inl (.trailingComma, [])
  | .comma :: rest => .inr rest
  | _ => .inl (.noSeparator, [])

mutual

/-- The tree of the value at the front of tokens, and the tokens after it. Nothing is read
    after a fault, so no tokens follow a broken tree. -/
def parseValue : (fuel : Nat) → List Token → Tree × List Token
  | 0, _ => (missing, [])
  | _ + 1, [] => (missing, [])
  | fuel + 1, token :: rest =>
    match token with
    | .null => (null, rest)
    | .boolean value => (boolean value, rest)
    | .number value => (number value, rest)
    | .text value => (text value, rest)
    | .openList =>
      match rest with
      | [] => (list [] .endOfText, [])
      | .closeList :: rest => (list [] .closed, rest)
      | rest =>
        let (elements, ending, rest) := parseElements fuel rest
        (list elements ending, rest)
    | .openObject =>
      match rest with
      | [] => (object [] .endOfText, [])
      | .closeObject :: rest => (object [] .closed, rest)
      | rest =>
        let (members, ending, rest) := parseMembers fuel rest
        (object members ending, rest)
    | .broken reading skipping => (broken reading skipping, [])
    | .brokenText reading skipping => (broken reading skipping, [])
    | _ => (broken .expectedValue .expectedValue, [])

/-- The elements from an element on. -/
def parseElements : (fuel : Nat) → List Token → List Tree × ListEnd × List Token
  | 0, _ => ([], .endOfText, [])
  | fuel + 1, tokens =>
    let (element, rest) := parseValue fuel tokens
    match afterElement rest with
    | .inl (ending, rest) => ([element], ending, rest)
    | .inr rest =>
      let (elements, ending, rest) := parseElements fuel rest
      (element :: elements, ending, rest)

/-- The members from the place on where a member must begin. -/
def parseMembers :
    (fuel : Nat) → List Token → List (Except Fault String × Tree) × ObjectEnd × List Token
  | 0, _ => ([], .endOfText, [])
  | _ + 1, [] => ([], .endOfText, [])
  | fuel + 1, token :: rest =>
    match token with
    | .text name =>
      let (member, rest) :=
        match rest with
        | [] => (broken .endInObject .endInObject, [])
        | .colon :: rest => parseValue fuel rest
        | _ => (broken .expectedColon .expectedColon, [])
      match afterMember rest with
      | .inl (ending, rest) => ([(name, member)], ending, rest)
      | .inr rest =>
        let (members, ending, rest) := parseMembers fuel rest
        ((name, member) :: members, ending, rest)
    | .brokenText reading skipping => ([], .brokenName reading skipping, [])
    | _ => ([], .noName, [])

end

/-- The tree of tokens and the tokens after it. One nested value or one separator takes at
    most two steps, so there are enough. -/
def parse (tokens : List Token) : Tree × List Token :=
  parseValue (2 * tokens.length + 1) tokens

/-- The tree of a text, and whether anything but blanks follows it. -/
def ofText (source : String) : Tree × Bool :=
  let (tree, rest) := parse (Token.lex source)
  (tree, !rest.isEmpty)

end Tree
end OperatorGen.Json
