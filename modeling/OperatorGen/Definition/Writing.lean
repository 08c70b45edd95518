import OperatorGen.Definition.Package

/-!
# Writing definitions

The JSON form in which definitions are written: every field is there, in the order of the
definition, and the fields of an argument stand beside those of its node. A custom rule
exists in code only, so a definition that holds one cannot be written.
-/
namespace OperatorGen

open Json (Value)

/-- Why a definition cannot be written. -/
inductive WriteError where
  | customRule
  deriving DecidableEq, Repr, Inhabited

def WriteError.message : WriteError → String
  | customRule => "the enum variant ParameterRule::Custom cannot be serialized"

def textList (texts : List String) : Value :=
  .list (texts.map .text)

def optionalText (text : Option String) : Value :=
  (text.map .text).getD .null

def wordValue (word : UInt32) : Value :=
  .number (.integer word.toNat)

/-- What a function gives for every element, in order, unless it fails for one. -/
def writeAll {α : Type} (write : α → Except WriteError Value) :
    List α → Except WriteError (List Value)
  | [] => .ok []
  | first :: rest => do
    let value ← write first
    let others ← writeAll write rest
    .ok (value :: others)

def Rule.toValue : Rule → Except WriteError Value
  | odd => .ok (.text "odd")
  | even => .ok (.text "even")
  | custom _ _ => .error .customRule

def Argument.members (argument : Argument) : List (String × Value) :=
  [("ident", .text argument.ident.text), ("name", .text argument.name),
   ("cv_type", .text argument.nativeType), ("data_type", .text argument.wrapperType),
   ("description", .text argument.description), ("init_in", textList argument.initIn),
   ("init_out", textList argument.initOut)]

def Parameter.members (parameter : Parameter) : Except WriteError (List (String × Value)) := do
  let rules ← writeAll Rule.toValue parameter.rules
  .ok (parameter.argument.members ++
    [("in_place", .boolean parameter.inPlace), ("is_init", .boolean parameter.isInit),
     ("default", optionalText parameter.default), ("rules", .list rules)])

def EnumDescription.toValue (description : EnumDescription) : Value :=
  .object [("ident", .text description.ident.text), ("name", .text description.name),
    ("cv_ident", .text description.nativeIdent)]

def EnumParameter.members (enumeration : EnumParameter) :
    Except WriteError (List (String × Value)) := do
  let members ← enumeration.parameter.members
  .ok (members ++ [("descriptions", .list (enumeration.descriptions.map EnumDescription.toValue))])

def NumericParameter.members (numeric : NumericParameter) :
    Except WriteError (List (String × Value)) := do
  let members ← numeric.parameter.members
  .ok (members ++
    [("min_value", optionalText numeric.min), ("max_value", optionalText numeric.max),
     ("step", optionalText numeric.step)])

def Node.tag : Node → String
  | input _ _ => "input"
  | output _ => "output"
  | refInput _ _ => "ref_input"
  | allocation _ => "allocation"
  | constant _ => "constant"
  | parameter _ => "parameter"
  | numeric _ => "numeric_parameter"
  | enumeration _ => "enum_parameter"

/-- The members of a node beside its kind. -/
def Node.members : Node → Except WriteError (List (String × Value))
  | input argument inPlace => .ok (argument.members ++ [("in_place", .boolean inPlace)])
  | output argument => .ok argument.members
  | refInput argument target => .ok (argument.members ++ [("ref_arg", .text target.text)])
  | allocation argument => .ok argument.members
  | constant c =>
    .ok [("ident", .text c.ident.text), ("cv_type", .text c.nativeType), ("value", .text c.value)]
  | parameter p => p.members
  | numeric n => n.members
  | enumeration e => e.members

/-- A node as a value, its kind first. -/
def Node.toValue (node : Node) : Except WriteError Value := do
  let members ← node.members
  .ok (.object (("kind", .text node.tag) :: members))

/-- The members that say how a compound combines its constituents. -/
def Constructor.members : Constructor → List (String × Value)
  | size => [("compound", .text "size")]
  | call name => [("compound", .text "call"), ("constructor", .text name)]

def Compound.toValue (compound : Compound) : Except WriteError Value := do
  let arguments ← writeAll Node.toValue compound.arguments
  .ok (.object (compound.constructor.members ++ [("args", .list arguments)]))

def Item.toValue : Item → Except WriteError Value
  | node n => n.toValue
  | compound c => c.toValue

def MethodOption.toValue (option : MethodOption) : Except WriteError Value := do
  let items ← writeAll Item.toValue option.items
  .ok (.object [("ident", .text option.ident.text), ("name", .text option.name),
    ("args", .list items)])

def Method.toValue (method : Method) : Except WriteError Value := do
  let options ← writeAll MethodOption.toValue method.options
  .ok (.object [("ident", .text method.ident.text), ("name", .text method.name),
    ("doc", .text method.doc), ("functions", .list method.functions), ("options", .list options)])

def Version.toValue (version : Version) : Value :=
  .object [("major", wordValue version.major), ("minor", wordValue version.minor),
    ("patch", wordValue version.patch)]

def Package.toValue (package : Package) : Except WriteError Value := do
  let methods ← writeAll Method.toValue package.methods
  .ok (.object [("ident", .text package.ident.text), ("name", .text package.name),
    ("description", .text package.description), ("version", package.version.toValue),
    ("methods", .list methods)])

def Package.write (package : Package) : Except WriteError String :=
  package.toValue.map Value.write

end OperatorGen
