import OperatorGen.Definition.Package
import OperatorGen.Json.Record

/-!
# Reading definitions

The JSON form of definitions. A package, a method and an option are records that are read
where they stand in the text; an item is read as a value first, the members of its objects
are sorted, and then it is a compound if it has a member `compound` and a node otherwise.
A node has its kind in front of its other fields. Fields that may be left out have their
defaults here; unknown members are passed over.
-/
namespace OperatorGen

open Json (DecodeError Decoder Fields Source Value)

/-! ## Rules -/

/-- Takes the value beside the name of a rule: null, or no members where those count as
    nothing too. -/
def Rule.readNothing (emptyObject : Bool) (source : Source) : Except DecodeError Unit := do
  match ← source.found, source, emptyObject with
  | .null, _, _ => .ok ()
  | _, .value (.object []), true => .ok ()
  | found, _, _ => .error (.wrongType found .unit)

/-- The fault where a rule in a text begins with a brace but has no member: an object that is
    closed at once has no value to offer. -/
def Rule.nameless (ending : Json.ObjectEnd) : Json.Fault :=
  ending.reading?.getD .expectedValue

/-- The faults of a string, which a rule in a text reports as they are. -/
def Rule.isTextFault : Json.Fault → Bool
  | .endInText | .controlCharacter | .invalidEscape | .loneSurrogate | .unpairedSurrogate => true
  | _ => false

/-- Requires that a rule in a text ends with a brace after its one member. -/
def Rule.closeText (rest : List (Except Json.Fault String × Source)) :
    Json.ObjectEnd → Except DecodeError Unit
  | .closed => if rest.isEmpty then .ok () else .error (.fault .expectedValue)
  | .endOfText =>
    .error (.fault (if rest.isEmpty then .endInObject else .expectedValue))
  | _ => .error (.fault .expectedValue)

/-- A rule that stands in a text: a name, or an object with the name and null. -/
def Rule.readText (source : Source) : Json.Tree → Except DecodeError Rule
  | .text name => do Decoder.named known (← Json.ofFault name)
  | .object _ _ => do
    let (members, ending) ← source.openedObject .unit
    match members with
    | [] => .error (.fault (nameless ending))
    | (name, nothing) :: rest => do
      let rule ← Decoder.named known (← Json.ofFault name)
      readNothing false nothing
      closeText rest ending
      .ok rule
  | .missing => .error (.fault .endInValue)
  | .broken fault _ => .error (.fault (if isTextFault fault then fault else .expectedValue))
  | _ => .error (.fault .expectedValue)

def Rule.readValue (emptyObject : Bool) : Value → Except DecodeError Rule
  | .text name => Decoder.named known name
  | .object [(name, nothing)] => do
    let rule ← Decoder.named known name
    readNothing emptyObject (.value nothing)
    .ok rule
  | .object _ => .error (.wrongValue .object .singleMember)
  | other => .error (.wrongType other.found .textOrObject)

def Rule.decoder (emptyObject : Bool) : Decoder Rule
  | .text room tree => readText (.text room tree) tree
  | .value value => readValue emptyObject value

/-! ## Nodes -/

def Ident.decoder : Decoder Ident := fun source =>
  (Decoder.text source).map Ident.mk

def textField (name : String) : Fields String :=
  .optional name Decoder.text ""

/-- A text that may be left out or null. -/
def optionalTextField (name : String) : Fields (Option String) :=
  .optional name Decoder.optionalText none

def flagField (name : String) : Fields Bool :=
  .optional name Decoder.boolean false

def listField {α : Type} (name : String) (element : Decoder α) : Fields (List α) :=
  .optional name (Decoder.list element) []

/-- The spelling of a record, which must be there. -/
def identField : Fields Ident :=
  .required "ident" Ident.decoder

def Argument.fields : Fields Argument :=
  (identField.and <| (textField "name").and <| (textField "cv_type").and <|
    (textField "data_type").and <| (textField "description").and <|
    (listField "init_in" Decoder.text).and (listField "init_out" Decoder.text)).map
  fun (ident, name, nativeType, wrapperType, description, initIn, initOut) =>
    { ident, name, nativeType, wrapperType, description, initIn, initOut }

def Argument.decoder : Decoder Argument :=
  fields.record "Argument"

def Constant.fields : Fields Constant :=
  (identField.and <| (Fields.required "cv_type" Decoder.text).and
    (.required "value" Decoder.text)).map
  fun (ident, nativeType, value) => { ident, nativeType, value }

/-- The fields of a parameter beside those of its argument. -/
def Parameter.ownFields (emptyObject : Bool) :
    Fields (Bool × Bool × Option String × List Rule) :=
  (flagField "in_place").and <| (flagField "is_init").and <|
    (optionalTextField "default").and (listField "rules" (Rule.decoder emptyObject))

def Parameter.ofParts :
    (Bool × Bool × Option String × List Rule) × Argument → Parameter
  | ((inPlace, isInit, default, rules), argument) =>
    { argument, inPlace, isInit, default, rules }

def Parameter.decoder (emptyObject : Bool) : Decoder Parameter := fun source =>
  ((ownFields emptyObject).flattened "Parameter" Argument.fields.ofMembers source).map ofParts

/-- The bounds and the step of a numeric parameter. -/
def NumericParameter.ownFields : Fields (Option String × Option String × Option String) :=
  (optionalTextField "min_value").and <|
    (optionalTextField "max_value").and (optionalTextField "step")

def NumericParameter.ofParts :
    (Option String × Option String × Option String) × Parameter → NumericParameter
  | ((min, max, step), parameter) => { parameter, min, max, step }

def NumericParameter.decoder : Decoder NumericParameter := fun source =>
  (ownFields.flattened "NumericParameter"
    (fun members => Parameter.decoder false (.value (.object members))) source).map ofParts

def EnumDescription.fields : Fields EnumDescription :=
  (identField.and <| (textField "name").and (optionalTextField "cv_ident")).map
  fun (ident, name, nativeIdent) => EnumDescription.make ident name nativeIdent

def EnumDescription.decoder : Decoder EnumDescription :=
  fields.record "Raw"

/-- The fields of an enum parameter; its types are not among them. -/
def EnumParameter.fields : Fields EnumParameter :=
  (identField.and <| (textField "name").and <| (textField "description").and <|
    (listField "init_in" Decoder.text).and <| (listField "init_out" Decoder.text).and <|
    (Parameter.ownFields true).and (listField "descriptions" EnumDescription.decoder)).map
  fun (ident, name, description, initIn, initOut, own, descriptions) =>
    let made := EnumParameter.make ident name
    { parameter := Parameter.ofParts
        (own, { made.parameter.argument with description, initIn, initOut })
      descriptions }

def EnumParameter.decoder : Decoder EnumParameter :=
  fields.record "Raw"

def argumentBeside {α : Type} (name : String) (own : Fields α) : Decoder (α × Argument) :=
  own.flattened name Argument.fields.ofMembers

def noFields : Fields Unit where
  Draft := Unit
  start := ()
  count := 0
  member _ _ _ := none
  element _ _ draft := .ok draft
  finish _ _ _ := .ok ()

/-- The kinds of nodes by name, each with the decoder of the other fields. -/
def Node.kinds : List (String × Decoder Node) :=
  [("input", fun source =>
      (argumentBeside "Input" (flagField "in_place") source).map fun (inPlace, argument) =>
        .input argument inPlace),
   ("output", fun source =>
      (argumentBeside "Output" noFields source).map fun (_, argument) => .output argument),
   ("ref_input", fun source =>
      (argumentBeside "RefInput" (.required "ref_arg" Ident.decoder) source).map
        fun (target, argument) => .refInput argument target),
   ("allocation", fun source =>
      (argumentBeside "Allocation" noFields source).map fun (_, argument) =>
        .allocation argument),
   ("constant", fun source => (Constant.fields.record "Constant" source).map .constant),
   ("parameter", fun source => (Parameter.decoder true source).map .parameter),
   ("numeric_parameter", fun source => (NumericParameter.decoder source).map .numeric),
   ("enum_parameter", fun source => (EnumParameter.decoder source).map .enumeration)]

/-- A node: its kind, then its fields. -/
def Node.decoder : Decoder Node := fun source => do
  let (readFields, content) ← Fields.tagged "ArgNode" "kind" (Decoder.variant kinds) source
  readFields (.value content)

/-! ## Items -/

/-- The ways to combine constituents by name, each with the decoder of the other fields. -/
def Constructor.kinds : List (String × Decoder Constructor) :=
  [("size", fun _ => .ok .size),
   ("call", fun source =>
      ((Fields.required "constructor" Decoder.text).record "Call" source).map .call)]

/-- The way to combine constituents that a tag names, or numbers. -/
def Constructor.tagDecoder : Decoder (Decoder Constructor) := fun source => do
  match ← source.found with
  | .number (.integer (.ofNat index)) =>
    match kinds[index]? with
    | some kind => .ok kind.2
    | none =>
      .error (.wrongValue (.number (.integer index)) (.variantIndex kinds.length))
  | _ => Decoder.variant kinds source

/-- The way to combine constituents that members describe. -/
def Constructor.ofMembers (members : List (String × Value)) : Except DecodeError Constructor := do
  let (readFields, content) ←
    Fields.tagged "CompoundKind" "compound" tagDecoder (.value (.object members))
  readFields (.value content)

def Compound.decoder : Decoder Compound := fun source =>
  ((Fields.required "args" (Decoder.list Node.decoder)).flattened "Compound"
    Constructor.ofMembers source).map fun (arguments, constructor) => ⟨constructor, arguments⟩

def Item.ofValue (value : Value) : Except DecodeError Item :=
  match value.member? "compound" with
  | some _ => (Compound.decoder (.value value)).map .compound
  | none => (Node.decoder (.value value)).map .node

def Item.decoder : Decoder Item := fun source => do
  let value ← Decoder.value source
  Item.ofValue value

/-! ## Packages -/

def MethodOption.decoder : Decoder MethodOption :=
  ((identField.and <| (textField "name").and (listField "args" Item.decoder)).map
    fun (ident, name, items) => ({ ident, name, items } : MethodOption)).record "OptionDef"

def Method.decoder : Decoder Method :=
  ((identField.and <| (textField "name").and <| (textField "doc").and <|
    (listField "functions" Decoder.value).and (listField "options" MethodOption.decoder)).map
    fun (ident, name, doc, functions, options) =>
      ({ ident, name, doc, functions, options } : Method)).record "Method"

def Version.decoder : Decoder Version :=
  (((Fields.required "major" Decoder.word).and <|
    (Fields.required "minor" Decoder.word).and (.required "patch" Decoder.word)).map
    fun (major, minor, patch) => ({ major, minor, patch } : Version)).record "Version"

def Package.decoder : Decoder Package :=
  ((identField.and <| (textField "name").and <| (textField "description").and <|
    (Fields.required "version" Version.decoder).and
      (listField "methods" Method.decoder)).map
    fun (ident, name, description, version, methods) =>
      ({ ident, name, description, version, methods } : Package)).record "Package"

def Package.parse (text : String) : Except DecodeError Package :=
  Package.decoder.decode text

end OperatorGen
