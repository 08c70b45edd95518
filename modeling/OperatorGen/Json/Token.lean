import OperatorGen.Json.Value

/-!
# JSON tokens

A text is split into tokens, blanks left out. A token that breaks off is the last one, and
it knows two faults: the one that a reader of the value reports and the one that a reader
reports that passes over it. A number out of range and a string with unpaired surrogates
are whole tokens, because passing over them is no fault.
-/
namespace OperatorGen.Json

/-- A lexical element of JSON text. -/
inductive Token where
  | openList
  | closeList
  | openObject
  | closeObject
  | comma
  | colon
  | null
  | boolean (value : Bool)
  | number (value : Except Fault Number)
  | text (value : Except Fault String)
  | broken (reading skipping : Fault)
  | brokenText (reading skipping : Fault)
  deriving Inhabited

namespace Token

/-- The characters that may stand between tokens. -/
def isBlank (c : Char) : Bool :=
  c == ' ' || c == '\t' || c == '\n' || c == '\r'

/-! ## Lexemes -/

/-- The rest of a text after a word that it begins with. -/
def afterWord : (word : List Char) → List Char → Except Fault (List Char)
  | [], rest => .ok rest
  | _ :: _, [] => .error .endInValue
  | w :: word, c :: rest => if w = c then afterWord word rest else .error .expectedWord

/-- A word and the rest; after a broken word there is no rest. -/
def word (token : Token) (letters : List Char) (rest : List Char) : Token × List Char :=
  match afterWord letters rest with
  | .ok rest => (token, rest)
  | .error fault => (broken fault fault, [])

/-- The fault that a reader of the value reports for a broken number. -/
def numeralFault : NumeralFault → Fault
  | .endOfText => .endInValue
  | .malformed => .invalidNumber

def numeral (chars : List Char) : Token × List Char :=
  match Numeral.scan chars with
  | .ok (numeral, rest) => (number numeral.number, rest)
  | .error fault => (broken (numeralFault fault) .invalidNumber, [])

def decoded (ending : Option Text.Break) (pieces : List Text.Piece) : Except Fault String :=
  (Text.decode ending pieces).map String.ofList

/-- A string whose opening quote has been read, and the rest. -/
def quoted (chars : List Char) : Token × List Char :=
  match Text.scan chars with
  | (pieces, .ok rest) => (text (decoded none pieces), rest)
  | (pieces, .error reason) =>
    match decoded (some reason) pieces with
    | .ok _ => (brokenText reason.fault reason.fault, [])
    | .error fault => (brokenText fault reason.fault, [])

/-- The token that begins with a character, and the rest. -/
def lexeme (c : Char) (rest : List Char) : Token × List Char :=
  match c with
  | '[' => (openList, rest)
  | ']' => (closeList, rest)
  | '\x7b' => (openObject, rest)
  | '\x7d' => (closeObject, rest)
  | ',' => (comma, rest)
  | ':' => (colon, rest)
  | 'n' => word null ['u', 'l', 'l'] rest
  | 't' => word (boolean true) ['r', 'u', 'e'] rest
  | 'f' => word (boolean false) ['a', 'l', 's', 'e'] rest
  | '"' => quoted rest
  | c =>
    if c = '-' ∨ c.isDigit then numeral (c :: rest)
    else (broken .expectedValue .expectedValue, [])

/-! ## Text -/

/-- The tokens of characters, at most as many as the fuel. -/
def lexWith : (fuel : Nat) → List Char → List Token
  | 0, _ => []
  | fuel + 1, chars =>
    match chars.dropWhile isBlank with
    | [] => []
    | c :: rest =>
      let (token, rest) := lexeme c rest
      token :: lexWith fuel rest

/-- The tokens of a text; every token takes at least one character. -/
def lex (source : String) : List Token :=
  lexWith source.toList.length source.toList

end Token
end OperatorGen.Json
