import OperatorGen.Json.Fault

/-!
# JSON strings

A string is read in two steps. `scan` splits the characters up to the closing quote into
pieces, a character each or a 16-bit unit given by its hexadecimal digits. `decode` joins
the units that are surrogates into characters. A reader that passes over a string needs the
first step alone, so it accepts surrogates that have no partner. `quote` writes a string.
-/
namespace OperatorGen.Json.Text

/-- A part of a string: a character, or a 16-bit unit given by hexadecimal digits. -/
inductive Piece where
  | char (c : Char)
  | unit (code : Nat)
  deriving DecidableEq, Repr, Inhabited

/-- Why a string does not come to its closing quote. -/
inductive Break where
  | endOfText
  | controlCharacter
  | badEscape
  | badDigits
  deriving DecidableEq, Repr, Inhabited

/-- The fault that a reader reports that passes over the string. -/
def Break.fault : Break → Fault
  | endOfText => .endInText
  | controlCharacter => .controlCharacter
  | badEscape => .invalidEscape
  | badDigits => .invalidEscape

/-! ## Scanning -/

def hexValue? (c : Char) : Option Nat :=
  if '0' ≤ c ∧ c ≤ '9' then some (c.toNat - 48)
  else if 'a' ≤ c ∧ c ≤ 'f' then some (c.toNat - 87)
  else if 'A' ≤ c ∧ c ≤ 'F' then some (c.toNat - 55)
  else none

def unitValue? (a b c d : Char) : Option Nat := do
  let a ← hexValue? a
  let b ← hexValue? b
  let c ← hexValue? c
  let d ← hexValue? d
  some (((a * 16 + b) * 16 + c) * 16 + d)

/-- The character that a letter after a backslash stands for. -/
def escaped? (c : Char) : Option Char :=
  match c with
  | '"' => some '"'
  | '\\' => some '\\'
  | '/' => some '/'
  | 'b' => some '\x08'
  | 'f' => some '\x0c'
  | 'n' => some '\n'
  | 'r' => some '\r'
  | 't' => some '\t'
  | _ => none

/-- How many bytes characters take in UTF-8. -/
def byteCount (chars : List Char) : Nat :=
  (chars.map Char.utf8Size).foldr Nat.add 0

/-- The break where fewer than four characters follow the mark of a unit: digits are sought
    among four bytes, and the text may end before them. -/
def shortUnit (rest : List Char) : Break :=
  if byteCount rest < 4 then .endOfText else .badDigits

/-- The pieces up to the closing quote and the rest after it, or the pieces up to a break. -/
def scan : List Char → List Piece × Except Break (List Char)
  | [] => ([], .error .endOfText)
  | '"' :: rest => ([], .ok rest)
  | ['\\'] => ([], .error .endOfText)
  | '\\' :: 'u' :: a :: b :: c :: d :: rest =>
    match unitValue? a b c d with
    | none => ([], .error .badDigits)
    | some code =>
      let (pieces, ending) := scan rest
      (.unit code :: pieces, ending)
  | '\\' :: 'u' :: rest => ([], .error (shortUnit rest))
  | '\\' :: c :: rest =>
    match escaped? c with
    | none => ([], .error .badEscape)
    | some c =>
      let (pieces, ending) := scan rest
      (.char c :: pieces, ending)
  | c :: rest =>
    if c.toNat < 0x20 then ([], .error .controlCharacter)
    else
      let (pieces, ending) := scan rest
      (.char c :: pieces, ending)

/-! ## Decoding -/

/-- The first unit of a pair. -/
def isHigh (code : Nat) : Bool :=
  0xD800 ≤ code && code ≤ 0xDBFF

/-- The second unit of a pair. -/
def isLow (code : Nat) : Bool :=
  0xDC00 ≤ code && code ≤ 0xDFFF

/-- The character of a pair. -/
def joinPair (high low : Nat) : Char :=
  Char.ofNat (0x10000 + (high - 0xD800) * 0x400 + (low - 0xDC00))

/-- The fault of the first unit of a pair that is the last piece, by how the string ends. -/
def unpairedFault : Option Break → Fault
  | some .endOfText => .endInText
  | some .badDigits => .invalidEscape
  | _ => .unpairedSurrogate

/-- The characters that pieces denote; `ending` says why no closing quote follows them. -/
def decode (ending : Option Break) : List Piece → Except Fault (List Char)
  | [] =>
    match ending with
    | none => .ok []
    | some reason => .error reason.fault
  | .char c :: rest => do
    let chars ← decode ending rest
    .ok (c :: chars)
  | .unit code :: rest =>
    if isLow code then .error .loneSurrogate
    else if isHigh code then
      match rest with
      | [] => .error (unpairedFault ending)
      | .char _ :: _ => .error .unpairedSurrogate
      | .unit low :: rest =>
        if isLow low then do
          let chars ← decode ending rest
          .ok (joinPair code low :: chars)
        else .error .loneSurrogate
    else do
      let chars ← decode ending rest
      .ok (Char.ofNat code :: chars)

/-! ## Writing -/

def hexDigit (n : Nat) : Char :=
  if n < 10 then Char.ofNat (48 + n) else Char.ofNat (87 + n)

/-- A character as it stands in a written string: quotes, backslashes and controls are
    escaped, the latter by a letter if there is one, and nothing else is. -/
def quoteChar (c : Char) : List Char :=
  match c with
  | '"' => ['\\', '"']
  | '\\' => ['\\', '\\']
  | '\x08' => ['\\', 'b']
  | '\x0c' => ['\\', 'f']
  | '\n' => ['\\', 'n']
  | '\r' => ['\\', 'r']
  | '\t' => ['\\', 't']
  | c =>
    if c.toNat < 0x20 then
      ['\\', 'u', '0', '0', hexDigit (c.toNat / 16), hexDigit (c.toNat % 16)]
    else [c]

def quoteChars (chars : List Char) : List Char :=
  '"' :: (chars.flatMap quoteChar ++ ['"'])

def quote (text : String) : String :=
  String.ofList (quoteChars text.toList)

end OperatorGen.Json.Text
