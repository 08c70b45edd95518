import OperatorGen.Definition.Rule
import OperatorGen.Ident

/-!
# Argument nodes

The arguments of a native call, by the part they play: inputs, outputs, constants and
parameters. All but constants share the fields of `Argument`, and all parameters share
those of `Parameter`.
-/
namespace OperatorGen

/-- The native namespace of enumerators that are given without one. -/
def nativeNamespace : String := "cv"

/-- What the arguments of every kind but constants have. -/
structure Argument where
  ident : Ident
  /-- The name that is displayed. -/
  name : String := ""
  /-- The type in the native library, such as `cv::Mat`. -/
  nativeType : String := ""
  /-- The type in the generated wrapper, such as `Image`. -/
  wrapperType : String := ""
  description : String := ""
  /-- Fragments that run before the native call. -/
  initIn : List String := []
  /-- Fragments that run after the native call. -/
  initOut : List String := []
  deriving DecidableEq, Repr, Inhabited

namespace Argument

def empty : Argument := { ident := ⟨""⟩ }

/-- The name to display: the spelling if there is no other. -/
def title (argument : Argument) : String :=
  if argument.name.isEmpty then argument.ident.text else argument.name

end Argument

/-- A value that is known when the wrapper is compiled. -/
structure Constant where
  ident : Ident
  nativeType : String
  value : String
  deriving DecidableEq, Repr, Inhabited

/-- A value that the user of the operator sets. -/
structure Parameter where
  argument : Argument
  inPlace : Bool := false
  /-- It must be set before the operator is initialized. -/
  isInit : Bool := false
  /-- The initial value, as a literal. -/
  default : Option String := none
  /-- The checks of the setter, in order. -/
  rules : List Rule := []
  deriving DecidableEq, Repr, Inhabited

/-- A parameter with numeric bounds, as literals. -/
structure NumericParameter where
  parameter : Parameter
  min : Option String := none
  max : Option String := none
  step : Option String := none
  deriving DecidableEq, Repr, Inhabited

/-- A value that an enum parameter can have. -/
structure EnumDescription where
  ident : Ident
  name : String
  /-- The native enumerator, such as `cv::THRESH_BINARY`. -/
  nativeIdent : String
  deriving DecidableEq, Repr, Inhabited

namespace EnumDescription

/-- A description; without a native enumerator it is the spelling in the native
    namespace. -/
def make (ident : Ident) (name : String) (nativeIdent : Option String) : EnumDescription :=
  ⟨ident, name, nativeIdent.getD (nativeNamespace ++ "::" ++ ident.text)⟩

def title (description : EnumDescription) : String :=
  if description.name.isEmpty then description.ident.text else description.name

end EnumDescription

/-- A parameter that is one of several native enumerators. -/
structure EnumParameter where
  parameter : Parameter
  descriptions : List EnumDescription := []
  deriving DecidableEq, Repr, Inhabited

namespace EnumParameter

def nativeType : String := "int"

def wrapperType : String := "Enum"

def make (ident : Ident) (name : String) : EnumParameter where
  parameter := { argument := { ident, name, nativeType, wrapperType } }

end EnumParameter

/-- An argument of a native call. -/
inductive Node where
  /-- An image or another value that the operator receives. -/
  | input (argument : Argument) (inPlace : Bool)
  /-- The value that the native call returns. -/
  | output (argument : Argument)
  /-- An output in a buffer that the operator receives; it may be the buffer of another
      argument, which is the target. -/
  | refInput (argument : Argument) (target : Ident)
  /-- An output in a buffer that the wrapper allocates. -/
  | allocation (argument : Argument)
  | constant (c : Constant)
  | parameter (p : Parameter)
  | numeric (n : NumericParameter)
  | enumeration (e : EnumParameter)
  deriving DecidableEq, Repr, Inhabited

namespace Node

/-- The fields shared by all kinds but constants. -/
def argument? : Node → Option Argument
  | input argument _ => some argument
  | output argument => some argument
  | refInput argument _ => some argument
  | allocation argument => some argument
  | constant _ => none
  | parameter p => some p.argument
  | numeric n => some n.parameter.argument
  | enumeration e => some e.parameter.argument

/-- The fields shared by all kinds of parameters. -/
def parameter? : Node → Option Parameter
  | parameter p => some p
  | numeric n => some n.parameter
  | enumeration e => some e.parameter
  | _ => none

def ident : Node → Ident
  | input argument _ => argument.ident
  | output argument => argument.ident
  | refInput argument _ => argument.ident
  | allocation argument => argument.ident
  | constant c => c.ident
  | parameter p => p.argument.ident
  | numeric n => n.parameter.argument.ident
  | enumeration e => e.parameter.argument.ident

def nativeType : Node → String
  | constant c => c.nativeType
  | node => (node.argument?.map Argument.nativeType).getD ""

/-- Whether a node is the value that the native call returns. -/
def isOutput : Node → Bool
  | output _ => true
  | _ => false

def isParameter (node : Node) : Bool :=
  node.parameter?.isSome

end Node
end OperatorGen
