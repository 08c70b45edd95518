import OperatorGen.Document
import OperatorGen.Emission.DataIds

/-!
# Setup of an operator

How an operator describes itself to the runtime: its constructor, the descriptions of its
parameters and of its inputs and outputs, and its initialization. Parameters that must be
set before initialization are described once; all else is described by option, in a switch
on the data flow if there is one (`forEachOption`).
-/
namespace OperatorGen.Setup

/-! ## Literals -/

/-- The upper case form of a character, set off by an underscore where a word begins: at a
    digit after a letter, or at an upper case letter after a lower case one. -/
def variantPiece (before : Option Char) (c : Char) : List Char :=
  let begins :=
    match before with
    | none => false
    | some b => (c.isDigit && b.isAlpha) || (c.isUpper && b.isLower)
  if begins then ['_', Ident.upperChar c] else [Ident.upperChar c]

/-- The enumerator form of a type after a character. -/
def variantChars : (before : Option Char) → List Char → List Char
  | _, [] => []
  | before, c :: rest => variantPiece before c ++ variantChars (some c) rest

/-- The runtime's enumerator for a type of the wrapper: `UInt32` becomes `UINT_32`. -/
def variant (wrapperType : String) : String :=
  String.ofList (variantChars none wrapperType.toList)

/-- A pass of escaping: a backslash in front of each occurrence of a character. -/
def escape (special : Char) (text : List Char) : List Char :=
  text.flatMap fun c => if c = special then ['\\', c] else [c]

/-- The title of an argument as a literal. Backslashes are escaped first, since the pass on
    quotes adds more of them. -/
def titleLiteral (argument : Argument) : String :=
  String.ofList ('"' :: (escape '"' (escape '\\' argument.title.toList) ++ ['"']))

/-- The display name of a description as a literal: only quotes are escaped. -/
def nameLiteral (description : EnumDescription) : String :=
  String.ofList ('"' :: (escape '"' description.title.toList ++ ['"']))

/-! ## Constructor -/

/-- The initial value of a parameter. The default of an enum parameter is the spelling of a
    description, which becomes its index. -/
def initialValue (node : Node) : String :=
  match node.parameter?.bind Parameter.default with
  | none => ""
  | some default =>
    match node with
    | .enumeration e =>
      match e.descriptions.findIdx? fun description => description.ident.text = default with
      | some index => toString index
      | none => default
    | _ => default

/-- Texts with commas between them: every text but the last gets one. -/
def separated : List String → List String
  | [] => []
  | [last] => [last]
  | first :: rest => (first ++ ",") :: separated rest

/-- The base class and the members, as the constructor initializes them. -/
def initializers (config : Config) (ids : DataIds) : List String :=
  separated
    (("  : " ++ config.runtime "OperatorKernel" ++
        "(TYPE, PACKAGE, VERSION, setupInitParameters())") ::
      ids.parameters.map fun node =>
        "    " ++ node.ident.member ++ "(" ++ initialValue node ++ ")")

def constructor (config : Config) (className : String) (ids : DataIds) : List Step :=
  [.line (className ++ "::" ++ className ++ "()")] ++
    (initializers config ids).map .line ++ Step.scope []

/-! ## Options -/

/-- The case of an option in a switch on the data flow. -/
def optionCase (option : MethodOption) (body : List Step) : List Step :=
  [.line ("case(" ++ option.ident.constant ++ "):")] ++
    Step.nested (Step.scope body ++ [.line "break;"])

/-- A switch on the data flow. -/
def dataFlowSwitch (cases : List Step) : List Step :=
  [.line ("switch(int(" ++ dataFlow.member ++ "))"), .line "\x7b"] ++ cases ++ [.line "\x7d"]

/-- What a section emits for the options of a method: a switch on the data flow, or, without
    a data flow, what it emits for the only option. -/
def forEachOption (ids : DataIds) (method : Method) (body : MethodOption → List Step) :
    List Step :=
  if ids.hasDataFlow then
    dataFlowSwitch (method.options.flatMap fun option => optionCase option (body option))
  else
    match method.options.head? with
    | some option => body option
    | none => []

section
variable {ε : Type}

/-- The cases of options in order, up to the first for which a section fails. -/
def tryOptionCases (body : MethodOption → Except ε (List Step)) :
    List MethodOption → Except ε (List Step)
  | [] => .ok []
  | option :: rest => do
    let steps ← body option
    let others ← tryOptionCases body rest
    .ok (optionCase option steps ++ others)

/-- What a section that can fail emits for the options of a method. -/
def tryForEachOption (ids : DataIds) (method : Method)
    (body : MethodOption → Except ε (List Step)) : Except ε (List Step) :=
  if ids.hasDataFlow then do
    let cases ← tryOptionCases body method.options
    .ok (dataFlowSwitch cases)
  else
    match method.options.head? with
    | some option => body option
    | none => .ok []

end

/-! ## Parameters -/

/-- The variable that holds the description of a parameter. -/
def parameterVariable (parameter : Parameter) : String :=
  parameter.argument.ident.member ++ "Parameter"

/-- The description of a parameter, given the expression that makes it and the steps that
    are particular to its kind. -/
def describeParameter (config : Config) (parameter : Parameter) (make : String)
    (details : List Step) : List Step :=
  let holder := parameterVariable parameter
  let access := if parameter.isInit then "NONE_WRITE" else "ACTIVATED_WRITE"
  [.line (holder ++ " = new " ++ make ++ ";"),
   .line (holder ++ "->setAccessMode(" ++ config.runtime "Parameter" ++ "::" ++ access ++ ");"),
   .line (holder ++ "->setTitle(" ++ titleLiteral parameter.argument ++ ");")] ++
    details ++
    [.line ("parameters.push_back(" ++ holder ++ ");"), Step.blank]

def describePlain (config : Config) (parameter : Parameter) : List Step :=
  let type := parameter.argument.wrapperType
  let made := if type = "Matrix" then "MatrixParameter" else "Parameter"
  describeParameter config parameter
    (config.runtime made ++ "(" ++ parameter.argument.ident.constant ++ ", " ++
      config.runtime "DataVariant" ++ "::" ++ variant type ++ ")")
    []

/-- The step that sets a bound, if there is one. -/
def boundStep (holder type setter : String) (bound : Option String) : List Step :=
  bound.toList.map fun value =>
    .line (holder ++ "->" ++ setter ++ "(" ++ type ++ "(" ++ value ++ "));")

def describeNumeric (config : Config) (numeric : NumericParameter) : List Step :=
  let parameter := numeric.parameter
  let type := config.runtime parameter.argument.wrapperType
  let holder := parameterVariable parameter
  describeParameter config parameter
    (config.runtime "NumericParameter" ++ "<" ++ type ++ ">(" ++
      parameter.argument.ident.constant ++ ")")
    (boundStep holder type "setMin" numeric.min ++ boundStep holder type "setMax" numeric.max ++
      boundStep holder type "setStep" numeric.step)

/-- The step that adds a value with a display name to an enum parameter. -/
def addStep (config : Config) (holder value : String) (description : EnumDescription) : Step :=
  .line (holder ++ "->add(" ++ config.runtime "EnumDescription" ++ "(" ++
    config.runtime "Enum" ++ "(" ++ value ++ "), " ++ nameLiteral description ++ "));")

/-- The value of the description at an index. The data flow has the enumerators of the
    options, and any other enum parameter has the indices. -/
def descriptionValue (ident : Ident) (index : Nat) (description : EnumDescription) : String :=
  if ident = dataFlow then description.ident.constant else toString index

def describeEnum (config : Config) (enumeration : EnumParameter) : List Step :=
  let parameter := enumeration.parameter
  let ident := parameter.argument.ident
  describeParameter config parameter
    (config.runtime "EnumParameter" ++ "(" ++ ident.constant ++ ")")
    (enumeration.descriptions.mapIdx fun index description =>
      addStep config (parameterVariable parameter) (descriptionValue ident index description)
        description)

/-- The description of a node, if it is a parameter that is set before the initialization,
    or after it, as asked. -/
def describeNode (config : Config) (isInit : Bool) (node : Node) : List Step :=
  if node.parameter?.any fun parameter => parameter.isInit == isInit then
    match node with
    | .parameter p => describePlain config p
    | .numeric n => describeNumeric config n
    | .enumeration e => describeEnum config e
    | _ => []
  else []

def listFunction (config : Config) (className function element list : String)
    (body : List Step) : List Step :=
  let type := "std::vector<const " ++ config.runtime element ++ "*>"
  [.line ("const " ++ type ++ " " ++ className ++ "::" ++ function ++ "()")] ++
    Step.scope
      ([.line (type ++ " " ++ list ++ ";"), Step.blank] ++ body ++
        [.line ("return " ++ list ++ ";")])

/-- The descriptions of the parameters to set before the initialization. -/
def initDescriptions (config : Config) (ids : DataIds) : List Step :=
  ids.parameters.flatMap (describeNode config true)

def initParameters (config : Config) (className : String) (descriptions : List Step) :
    List Step :=
  listFunction config className "setupInitParameters" "Parameter" "parameters" descriptions

/-- The empty line that stands after a switch on the data flow. -/
def afterSwitch (ids : DataIds) : List Step :=
  if ids.hasDataFlow then [Step.blank] else []

/-- The descriptions of the other parameters of an option. -/
def laterDescriptions (config : Config) (option : MethodOption) : List Step :=
  option.arguments.flatMap (describeNode config false)

def parameters (config : Config) (className : String) (ids : DataIds)
    (descriptions : List Step) : List Step :=
  listFunction config className "setupParameters" "Parameter" "parameters"
    (descriptions ++ afterSwitch ids)

/-! ## Inputs and outputs -/

/-- A side of an operator. -/
inductive Side where
  | inputs
  | outputs
  deriving DecidableEq, Repr, Inhabited

namespace Side

def list : Side → String
  | inputs => "inputs"
  | outputs => "outputs"

def function : Side → String
  | inputs => "setupInputs"
  | outputs => "setupOutputs"

end Side

/-- Whether a node is on a side of the operator. A ref input is on both. -/
def isOn (side : Side) : Node → Bool
  | .input _ _ => side = .inputs
  | .output _ => side = .outputs
  | .allocation _ => side = .outputs
  | .refInput _ _ => true
  | _ => false

/-- A statement of the description of an input or an output. -/
inductive ConnectorStatement where
  /-- Makes the description of an argument. -/
  | describe (argument : Argument)
  /-- Gives the description its title. -/
  | title (argument : Argument)
  /-- Puts the description into the list of a side. -/
  | push (side : Side) (ident : Ident)
  | blank
  deriving DecidableEq, Repr, Inhabited

def ConnectorStatement.step (config : Config) : ConnectorStatement → Step
  | describe argument =>
    let type := config.runtime "Description"
    .line (type ++ "* " ++ argument.ident.text ++ " = new " ++ type ++ "(" ++
      argument.ident.constant ++ ", " ++ config.runtime "DataVariant" ++ "::" ++
      variant argument.wrapperType ++ ");")
  | title argument => .line (argument.ident.text ++ "->setTitle(" ++ titleLiteral argument ++ ");")
  | push side ident => .line (side.list ++ ".push_back(" ++ ident.text ++ ");")
  | blank => Step.blank

/-- The description of an argument on a side. -/
def connect (side : Side) (argument : Argument) : List ConnectorStatement :=
  [.describe argument, .title argument, .push side argument.ident, .blank]

/-- The description of a node on a side, if it is there. -/
def connectNode (side : Side) (node : Node) : List ConnectorStatement :=
  if isOn side node then (node.argument?.map (connect side)).getD [] else []

/-- The descriptions of the arguments of an option on a side. -/
def connections (side : Side) (option : MethodOption) : List ConnectorStatement :=
  option.arguments.flatMap (connectNode side)

/-- The code of the descriptions of an option on a side. -/
def connectionSteps (config : Config) (side : Side) (option : MethodOption) : List Step :=
  (connections side option).map (ConnectorStatement.step config)

def connectors (config : Config) (className : String) (ids : DataIds) (side : Side)
    (descriptions : List Step) : List Step :=
  listFunction config className side.function "Description" side.list
    (descriptions ++ afterSwitch ids)

/-! ## Initialization -/

def initialization (config : Config) (className : String) : List Step :=
  [.line ("void " ++ className ++ "::initialize()")] ++
    Step.scope
      [.line (config.runtime "OperatorKernel" ++
        "::initialize(setupInputs(), setupOutputs(), setupParameters());")]

end OperatorGen.Setup
