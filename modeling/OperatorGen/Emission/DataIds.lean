import OperatorGen.Definition.Package

/-!
# Data ids of a method

Every argument of a method but a constant has a data id, by which the operator and its
runtime name it. Arguments with one spelling share one id, and the first of them decides
whether the id is a parameter. A method with several options has one more parameter, the
data flow, which selects the option; its spelling is reserved.
-/
namespace OperatorGen

/-- Why no code can be emitted for a method. -/
inductive EmitError where
  | reservedDataFlow (method : Ident)
  | secondOutput (option ident first : Ident)
  | unknownReference (option ident target : Ident)
  deriving DecidableEq, Repr, Inhabited

/-- The spelling of the parameter that selects the option. -/
def dataFlow : Ident := ⟨"dataFlow"⟩

namespace EmitError

def quote (ident : Ident) : String :=
  "`" ++ ident.text ++ "`"

def message : EmitError → String
  | reservedDataFlow method =>
    "method " ++ quote method ++ " declares " ++ quote dataFlow ++
      ", which is reserved for option selection"
  | secondOutput option ident first =>
    "option " ++ quote option ++ ": " ++ quote ident ++ " is a second output after " ++
      quote first
  | unknownReference option ident target =>
    "option " ++ quote option ++ ": " ++ quote ident ++ " references unknown argument " ++
      quote target

end EmitError

/-- The ids of a method in the order in which they are first seen, and the nodes of those
    that are parameters. -/
structure DataIds where
  ids : List Ident := []
  parameters : List Node := []
  deriving Repr, Inhabited

namespace DataIds

/-- Adds the id of a node, unless it is there already; constants have none. -/
def add (seen : DataIds) (node : Node) : DataIds :=
  match node with
  | .constant _ => seen
  | node =>
    if node.ident ∈ seen.ids then seen
    else
      { ids := seen.ids ++ [node.ident]
        parameters := if node.isParameter then seen.parameters ++ [node] else seen.parameters }

/-- The ids of the arguments that a method declares. -/
def declared (method : Method) : DataIds :=
  method.arguments.foldl add {}

/-- The parameter that selects the option: one description for each. -/
def dataFlowParameter (options : List MethodOption) : EnumParameter :=
  let made := EnumParameter.make dataFlow "Data flow"
  { parameter := { made.parameter with isInit := true }
    descriptions := options.map fun option =>
      EnumDescription.make option.ident option.name (some option.ident.constant) }

/-- The ids of a method, given those that it declares: with several options there is the data
    flow too. -/
def complete (method : Method) (declared : DataIds) : Except EmitError DataIds :=
  if 1 < method.options.length then
    if dataFlow ∈ declared.ids then .error (.reservedDataFlow method.ident)
    else .ok (declared.add (.enumeration (dataFlowParameter method.options)))
  else .ok declared

/-- The ids of a method. -/
def collect (method : Method) : Except EmitError DataIds :=
  complete method (declared method)

/-- Whether there is a data flow to select options by. -/
def hasDataFlow (ids : DataIds) : Bool :=
  ids.ids.contains dataFlow

end DataIds
end OperatorGen
