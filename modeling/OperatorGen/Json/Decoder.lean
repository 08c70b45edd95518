import OperatorGen.Json.Source

/-!
# Decoders

The decoders of plain values and of lists, and the reading of a whole text with a decoder
(`Decoder.decode`): the first problem in reading order is the one reported, and nothing but
blanks may follow the value.
-/
namespace OperatorGen.Json.Decoder

/-! ## Plain values -/

def text : Decoder String := fun source => do
  match ← source.found with
  | .text value => .ok value
  | found => .error (.wrongType found .text)

def optionalText : Decoder (Option String) := fun source => do
  match ← source.found with
  | .text value => .ok (some value)
  | .null => .ok none
  | found => .error (.wrongType found .text)

def boolean : Decoder Bool := fun source => do
  match ← source.found with
  | .boolean value => .ok value
  | found => .error (.wrongType found .boolean)

/-- A whole number of 32 bits. -/
def word : Decoder UInt32 := fun source => do
  match ← source.found with
  | .number (.integer value) =>
    if 0 ≤ value ∧ value < UInt32.size then .ok (UInt32.ofNat value.toNat)
    else .error (.wrongValue (.number (.integer value)) .word)
  | found => .error (.wrongType found .word)

/-- Any value, with the members of its objects sorted. -/
def value : Decoder Value := fun source => do
  let value ← source.read
  .ok value.sorted

/-! ## Lists -/

def readAll {α : Type} (element : Decoder α) : List Source → Except DecodeError (List α)
  | [] => .ok []
  | source :: rest => do
    let first ← element source
    let others ← readAll element rest
    .ok (first :: others)

def list {α : Type} (element : Decoder α) : Decoder (List α) := fun source => do
  let (elements, ending) ← source.openedList .list
  let values ← readAll element elements
  raise ending.reading?
  .ok values

/-! ## Names -/

/-- A name out of several, each with what it stands for. -/
def named {α : Type} (known : List (String × α)) (name : String) : Except DecodeError α :=
  match known.find? fun entry => entry.1 = name with
  | some entry => .ok entry.2
  | none => .error (.unknownVariant name (known.map Prod.fst))

/-- A text that is a name out of several. -/
def variant {α : Type} (known : List (String × α)) : Decoder α := fun source => do
  match ← source.found with
  | .text name => named known name
  | found => .error (.wrongType found .variantName)

/-! ## Whole texts -/

/-- What a text denotes. -/
def decode {α : Type} (decoder : Decoder α) (text : String) : Except DecodeError α := do
  let (tree, more) := Tree.ofText text
  let value ← decoder (.text Tree.roomInText tree)
  if more then .error (.fault .trailingCharacters) else .ok value

end OperatorGen.Json.Decoder
