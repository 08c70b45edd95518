import OperatorGen.Config
import OperatorGen.Definition.Node
import OperatorGen.Json.Value

/-!
# Packages

A package has methods, a method has options, which are the ways of calling it, and an
option has items in order. An item is an argument node or a compound, which builds one
native value from several nodes. The nodes of an option in order, those inside compounds
included, are its `arguments`.
-/
namespace OperatorGen

structure Version where
  major : UInt32
  minor : UInt32
  patch : UInt32
  deriving DecidableEq, Repr, Inhabited

/-- How a compound combines its constituents. -/
inductive Constructor where
  /-- A size, whose type the conventions name. -/
  | size
  /-- A call of the native constructor with a name. -/
  | call (name : String)
  deriving DecidableEq, Repr, Inhabited

/-- A native value built from several arguments. -/
structure Compound where
  constructor : Constructor
  arguments : List Node
  deriving DecidableEq, Repr, Inhabited

namespace Compound

/-- The expression that builds the value, such as `cv::Size(wCvData, hCvData)`. -/
def expression (config : Config) (compound : Compound) : String :=
  let name :=
    match compound.constructor with
    | .size => config.sizeType
    | .call name => name
  name ++ "(" ++ ", ".intercalate (compound.arguments.map fun node => config.dataName node.ident)
    ++ ")"

/-- The compound as a diagnostic shows it, such as `size(w, h)`. -/
def label (compound : Compound) : String :=
  let name :=
    match compound.constructor with
    | .size => "size"
    | .call name => name
  name ++ "(" ++ ", ".intercalate (compound.arguments.map fun node => node.ident.text) ++ ")"

end Compound

/-- A place in the argument list of an option. -/
inductive Item where
  | node (n : Node)
  | compound (c : Compound)
  deriving DecidableEq, Repr, Inhabited

namespace Item

/-- The nodes of an item: itself, or the constituents of a compound. -/
def arguments : Item → List Node
  | node n => [n]
  | compound c => c.arguments

end Item

/-- A way of calling a method, such as in place or with a buffer of its own. -/
structure MethodOption where
  ident : Ident
  name : String := ""
  items : List Item := []
  deriving DecidableEq, Repr, Inhabited

namespace MethodOption

/-- The argument nodes in order, those of compounds in the place of the compound. -/
def arguments (option : MethodOption) : List Node :=
  option.items.flatMap Item.arguments

def find? (option : MethodOption) (ident : Ident) : Option Node :=
  option.arguments.find? fun node => node.ident = ident

/-- What a ref input aliases: the first argument with the spelling of the target that is
    not the ref input itself or a copy of it. -/
def resolve? (option : MethodOption) (argument : Argument) (target : Ident) : Option Node :=
  option.arguments.find? fun node =>
    node.ident = target && node != .refInput argument target

end MethodOption

/-- A family of native functions that is wrapped as one operator. -/
structure Method where
  ident : Ident
  name : String := ""
  doc : String := ""
  /-- The overloads, which are not looked into but for the name of the first. -/
  functions : List Json.Value := []
  options : List MethodOption := []
  deriving Repr, Inhabited

namespace Method

def arguments (method : Method) : List Node :=
  method.options.flatMap MethodOption.arguments

/-- The native function to call: the name of the first overload, or the spelling of the
    method in the native namespace. -/
def nativeFunction (method : Method) : String :=
  match method.functions.head?.bind (Json.Value.member? "name") with
  | some (.text name) => name
  | _ => nativeNamespace ++ "::" ++ method.ident.text

end Method

/-- What one definition file describes. -/
structure Package where
  ident : Ident
  name : String := ""
  description : String := ""
  version : Version
  methods : List Method := []
  deriving Repr, Inhabited

end OperatorGen
