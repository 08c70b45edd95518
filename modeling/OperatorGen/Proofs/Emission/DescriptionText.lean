import OperatorGen.Proofs.Emission.Sections

/-!
# The text of descriptions

What an operator tells the runtime of a parameter (`parameterLines`), and of an input or an
output (`connectorLines`), is written out here line by line as it is read in a file. The
descriptions of a node are emitted as these lines (`describeNode_eq`, `connectNode_eq`).
-/
namespace OperatorGen

namespace Node

/-- Whether a node is a parameter that is set before the initialization. -/
def isInit (node : Node) : Bool :=
  node.parameter?.any Parameter.isInit

/-- Whether a node is a parameter that is set before the initialization, or one that is set
    after it, as asked. -/
def isDescribed (isInit : Bool) (node : Node) : Bool :=
  node.parameter?.any fun parameter => parameter.isInit == isInit

theorem isDescribed_iff {isInit : Bool} {node : Node} :
    node.isDescribed isInit = true ↔ node.isParameter = true ∧ node.isInit = isInit := by
  rw [isDescribed, isParameter, Node.isInit]
  cases node.parameter? with
  | none => simp
  | some parameter => simp

/-- The argument of a node that an operator receives: an input, or a ref input. -/
def received? : Node → Option Argument
  | input argument _ => some argument
  | refInput argument _ => some argument
  | _ => none

/-- The argument of a node that an operator sends: an output, an allocation, or a ref input. -/
def sent? : Node → Option Argument
  | output argument => some argument
  | allocation argument => some argument
  | refInput argument _ => some argument
  | _ => none

end Node

namespace Setup

variable (config : Config)

/-! ## Parameters -/

/-- The line that puts the description of a parameter into the list. -/
def pushStep (ident : Ident) : Step :=
  .line ("parameters.push_back(" ++ (ident.member ++ "Parameter") ++ ");")

/-- The lines of the description of a parameter, given the expression that makes it and the lines
    that are particular to its kind. -/
def descriptionLines (parameter : Parameter) (made : String) (details : List Step) : List Step :=
  let holder := parameter.argument.ident.member ++ "Parameter"
  [Step.line (holder ++ " = new " ++ made ++ ";"),
   .line (holder ++ "->setAccessMode(" ++ config.runtime "Parameter" ++ "::" ++
      (if parameter.isInit then "NONE_WRITE" else "ACTIVATED_WRITE") ++ ");"),
   .line (holder ++ "->setTitle(" ++ titleLiteral parameter.argument ++ ");")] ++ details ++
    [pushStep parameter.argument.ident, .line ""]

/-- The lines that set a bound of a numeric parameter, if it has that bound. -/
def boundLines (parameter : Parameter) (setter : String) (bound : Option String) : List Step :=
  bound.toList.map fun value =>
    .line (parameter.argument.ident.member ++ "Parameter" ++ "->" ++ setter ++ "(" ++
      config.runtime parameter.argument.wrapperType ++ "(" ++ value ++ "));")

/-- The line that registers a value of an enum parameter with a literal for its name. -/
def addLine (parameter : Parameter) (value literal : String) : Step :=
  .line (parameter.argument.ident.member ++ "Parameter" ++ "->add(" ++
    config.runtime "EnumDescription" ++ "(" ++ config.runtime "Enum" ++ "(" ++ value ++ "), " ++
    literal ++ "));")

/-- The lines of the description of a parameter. Values of the data flow are registered by the
    enumerators of the options, those of another enum parameter by their indices. -/
def parameterLines : Node → List Step
  | .parameter p =>
    descriptionLines config p
      (config.runtime (if p.argument.wrapperType = "Matrix" then "MatrixParameter"
          else "Parameter") ++ "(" ++ p.argument.ident.constant ++ ", " ++
        config.runtime "DataVariant" ++ "::" ++ variant p.argument.wrapperType ++ ")") []
  | .numeric n =>
    descriptionLines config n.parameter
      (config.runtime "NumericParameter" ++ "<" ++
        config.runtime n.parameter.argument.wrapperType ++ ">(" ++
        n.parameter.argument.ident.constant ++ ")")
      (boundLines config n.parameter "setMin" n.min ++
        boundLines config n.parameter "setMax" n.max ++
        boundLines config n.parameter "setStep" n.step)
  | .enumeration e =>
    descriptionLines config e.parameter
      (config.runtime "EnumParameter" ++ "(" ++ e.parameter.argument.ident.constant ++ ")")
      (e.descriptions.mapIdx fun index description =>
        addLine config e.parameter
          (if e.parameter.argument.ident = dataFlow then description.ident.constant
            else toString index)
          (nameLiteral description))
  | _ => []

variable {config}

/-- A parameter is described by its lines in the function to which it belongs, and not at all in
    the other one. -/
theorem describeNode_eq (isInit : Bool) (node : Node) :
    describeNode config isInit node =
      if node.isDescribed isInit then parameterLines config node else [] := by
  cases node with
  | parameter p => rfl
  | numeric n => rfl
  | enumeration e => rfl
  | _ => exact (ite_self _).symm

theorem flatMap_describeNode (isInit : Bool) (nodes : List Node) :
    nodes.flatMap (describeNode config isInit) =
      (nodes.filter (Node.isDescribed isInit)).flatMap (parameterLines config) := by
  induction nodes with
  | nil => rfl
  | cons node rest ih =>
    rw [List.flatMap_cons, ih, describeNode_eq, List.filter_cons]
    split <;> rfl

/-- A parameter among nodes is described with them in the function to which it belongs. -/
theorem parameterLines_infix {isInit : Bool} {node : Node} {nodes : List Node}
    (member : node ∈ nodes) (parameter : node.isParameter = true) (asked : node.isInit = isInit) :
    parameterLines config node <:+: nodes.flatMap (describeNode config isInit) := by
  have inside := Emission.infix_flatMap member (describeNode config isInit)
  rwa [describeNode_eq, if_pos (Node.isDescribed_iff.mpr ⟨parameter, asked⟩)] at inside

/-- An option has the lines of its parameters that are set after the initialization. -/
theorem laterDescriptions_eq (option : MethodOption) :
    laterDescriptions config option =
      (option.arguments.filter (Node.isDescribed false)).flatMap (parameterLines config) :=
  flatMap_describeNode false option.arguments

/-! ## Inputs and outputs -/

variable (config) in
/-- The lines that describe an argument and put the description into a list. -/
def connectorLines (list : String) (argument : Argument) : List Step :=
  [Step.line (config.runtime "Description" ++ "* " ++ argument.ident.text ++ " = new " ++
      config.runtime "Description" ++ "(" ++ argument.ident.constant ++ ", " ++
      config.runtime "DataVariant" ++ "::" ++ variant argument.wrapperType ++ ");"),
   .line (argument.ident.text ++ "->setTitle(" ++ titleLiteral argument ++ ");"),
   .line (list ++ ".push_back(" ++ argument.ident.text ++ ");"),
   .line ""]

/-- The argument of a node on a side: the one that is received, or the one that is sent. -/
def Side.argument? : Side → Node → Option Argument
  | inputs => Node.received?
  | outputs => Node.sent?

theorem connectNode_eq (side : Side) (node : Node) :
    (connectNode side node).map (ConnectorStatement.step config) =
      (side.argument? node).toList.flatMap (connectorLines config side.list) := by
  cases side <;> cases node <;> rfl

/-- An option has the lines of its arguments on a side. -/
theorem connectionSteps_eq (side : Side) (option : MethodOption) :
    connectionSteps config side option =
      (option.arguments.filterMap side.argument?).flatMap (connectorLines config side.list) := by
  rw [connectionSteps, connections]
  induction option.arguments with
  | nil => rfl
  | cons node rest ih =>
    rw [List.flatMap_cons, List.map_append, ih, connectNode_eq, List.filterMap_cons]
    cases side.argument? node with
    | none => rfl
    | some argument =>
      rw [Option.toList_some, List.flatMap_cons, List.flatMap_nil, List.append_nil,
        List.flatMap_cons]

end Setup
end OperatorGen
