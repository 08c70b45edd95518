import OperatorGen.Emission.Check
import OperatorGen.Emission.DataIds

/-!
# Access to parameters

The functions by which the runtime gets and sets the parameters of an operator: one case
for each parameter in the order of the ids, and an exception for any other id. A setter
case converts the value, checks it for its kind of parameter, runs the checks of the rules,
and only then assigns it.
-/
namespace OperatorGen.Access

/-- The case for ids of no parameter. -/
def wrongId (config : Config) : List Step :=
  [.line "default:"] ++
    Step.nested [.line ("throw " ++ config.runtime "WrongParameterId" ++ "(id, *this);")]

/-- A switch over ids. -/
def idSwitch (config : Config) (cases : List Step) : List Step :=
  [.line "switch(id)", .line "\x7b"] ++ cases ++ wrongId config ++ [.line "\x7d"]

/-! ## Getting -/

def getCase (ident : Ident) : List Step :=
  [.line ("case " ++ ident.constant ++ ":")] ++
    Step.nested [.line ("return " ++ ident.member ++ ";")]

/-- The function that returns a parameter. -/
def getter (config : Config) (className : String) (ids : DataIds) : List Step :=
  [.line ("const " ++ config.runtime "DataRef" ++ " " ++ className ++
      "::getParameter(unsigned int id) const")] ++
    Step.scope (idSwitch config (ids.parameters.flatMap fun node => getCase node.ident))

/-! ## Setting -/

/-- The function of the runtime that checks values of a kind of parameter. -/
def kindCheck? : Node → Option String
  | .parameter p =>
    if p.argument.wrapperType = "Matrix" then some "checkMatrixValue" else none
  | .numeric _ => some "checkNumericValue"
  | .enumeration _ => some "checkEnumValue"
  | _ => none

def kindCheckStep (ident : Ident) (check : String) : Step :=
  .line (check ++ "(castedValue, " ++ ident.member ++ "Parameter, *this);")

/-- The case that sets a parameter. -/
def setCase (config : Config) (parameter : Parameter) (check : Option String) : List Step :=
  let ident := parameter.argument.ident
  let type := config.runtime parameter.argument.wrapperType
  [.line ("case " ++ ident.constant ++ ":")] ++
    Step.nested
      (Step.scope
        ([.line ("const " ++ type ++ " & castedValue = " ++ config.runtime "data_cast" ++ "<" ++
            type ++ ">(value);")] ++
          check.toList.map (kindCheckStep ident) ++
          parameter.checks ++
          [.line (ident.member ++ " = castedValue;")]) ++
        [.line "break;"])

/-- The case that sets the parameter of a node; other nodes have none. -/
def setNodeCase (config : Config) (node : Node) : List Step :=
  match node.parameter? with
  | some parameter => setCase config parameter (kindCheck? node)
  | none => []

/-- The function that sets a parameter, given its cases. -/
def setter (config : Config) (className : String) (cases : List Step) : List Step :=
  [.line ("void " ++ className ++ "::setParameter(unsigned int id, const " ++
      config.runtime "Data" ++ "& value)")] ++
    Step.scope
      ([.line "try"] ++ Step.scope (idSwitch config cases) ++
        [.line ("catch(" ++ config.runtime "BadCast" ++ "&)")] ++
        Step.scope
          [.line ("throw " ++ config.runtime "WrongParameterType" ++ "(parameter(id), *this);")])

end OperatorGen.Access
