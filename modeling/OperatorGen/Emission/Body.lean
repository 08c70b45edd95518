import OperatorGen.Document
import OperatorGen.Emission.DataIds

/-!
# Bodies of execute

What an operator does for one option: it declares the native variable of every argument,
runs the fragments that come before the call, calls the native function, runs the fragments
that come after it, and hands the outputs back. A body is made of statements, and a
statement is put into code by `Statement.steps`. The arguments are taken in one after
another (`Body.add`); what belongs behind the call is kept until then. The call has at most
one return value, and a ref input must have a target.
-/
namespace OperatorGen

/-- The name of the function that converts the values of an enum parameter. -/
def converterName (ident : Ident) : String :=
  "convert" ++ ident.className

namespace Body

/-! ## Statements -/

/-- A way to open a container. -/
inductive Access where
  | read
  | write
  deriving DecidableEq, Repr, Inhabited

def Access.name : Access → String
  | read => "ReadAccess"
  | write => "WriteAccess"

/-- What a native variable is declared with. -/
inductive Initial where
  /-- What the opened container of the argument holds. -/
  | opened (access : Access)
  /-- The member of the argument. -/
  | member
  /-- The member of the argument, run through its converter. -/
  | converted
  | literal (text : String)
  deriving DecidableEq, Repr, Inhabited

/-- What is handed back for an output. -/
inductive Handed where
  /-- The container that was received. -/
  | received
  /-- A new container around the native variable. -/
  | wrapped
  deriving DecidableEq, Repr, Inhabited

/-- A statement of a body. -/
inductive Statement where
  /-- Receives the container of an argument. -/
  | receive (ident : Ident)
  /-- Opens the container of an argument. -/
  | openAccess (access : Access) (ident : Ident)
  /-- Refuses the container of an argument if it is that of a source. -/
  | guard (ident source : Ident)
  /-- Declares the native variable of an argument with a value. -/
  | declare (nativeType : String) (ident : Ident) (initial : Initial)
  /-- Declares the native variable of an argument without a value. -/
  | allocate (nativeType : String) (ident : Ident)
  /-- A fragment of the definition. -/
  | fragment (text : String)
  | blank
  /-- Calls the native function with items; the result goes to the variable of an output. -/
  | call (result : Option Argument) (function : String) (items : List Item)
  /-- Hands an output back. -/
  | send (ident : Ident) (handed : Handed)
  deriving DecidableEq, Repr, Inhabited

/-! ## Code of statements -/

/-- The conversion of an expression of the wrapper to a native type. -/
def nativeFrom (nativeType expression : String) : String :=
  if nativeType = "cv::Mat" then "cvsupport::getOpenCvMat(" ++ expression ++ ")"
  else nativeType ++ "(" ++ expression ++ ")"

/-- The variable that holds the container of an argument. -/
def containerName (ident : Ident) : String :=
  ident.text ++ "Container"

/-- The variable that holds the opened container of an argument. -/
def accessName (access : Access) (ident : Ident) : String :=
  ident.text ++ access.name

/-- The value of a native variable. -/
def Initial.expression (nativeType : String) (ident : Ident) : Initial → String
  | opened access => nativeFrom nativeType (accessName access ident ++ "()")
  | member => nativeFrom nativeType ident.member
  | converted => converterName ident ++ "(" ++ ident.member ++ ")"
  | literal text => text

/-- The container that is handed back. -/
def Handed.expression (config : Config) (ident : Ident) : Handed → String
  | received => containerName ident
  | wrapped => config.runtime "DataContainer" ++ "(cvsupport::wrap(" ++ config.dataName ident ++ "))"

/-- What an item is in the argument list of the call; an output is not in it. -/
def callArgument? (config : Config) : Item → Option String
  | .node (.output _) => none
  | .node node => some (config.dataName node.ident)
  | .compound compound => some (compound.expression config)

def callArguments (config : Config) (items : List Item) : List String :=
  items.filterMap (callArgument? config)

def callExpression (function : String) (arguments : List String) : String :=
  function ++ "(" ++ ", ".intercalate arguments ++ ");"

/-- The declaration of the variable for the result of the call, if there is one. -/
def resultDeclaration (config : Config) : Option Argument → String
  | some argument => argument.nativeType ++ " " ++ config.dataName argument.ident ++ " = "
  | none => ""

/-- The code of a statement. -/
def Statement.steps (config : Config) : Statement → List Step
  | receive ident =>
    [.line (config.runtime "DataContainer" ++ " " ++ containerName ident ++
      " = provider.receiveInputData(" ++ ident.constant ++ ");")]
  | openAccess access ident =>
    [.line (config.runtime access.name ++ " " ++ accessName access ident ++ "(" ++
      containerName ident ++ ");")]
  | guard ident source =>
    [.line ("if(" ++ containerName ident ++ " == " ++ containerName source ++ ")")] ++
      Step.nested
        [.line ("throw " ++ config.runtime "InputError" ++ "(" ++ source.constant ++
          ", *this, \"Can not operate in place.\");")]
  | declare nativeType ident initial =>
    [.line (nativeType ++ " " ++ config.dataName ident ++ " = " ++
      initial.expression nativeType ident ++ ";")]
  | allocate nativeType ident => [.line (nativeType ++ " " ++ config.dataName ident ++ ";")]
  | fragment text => [.line text]
  | blank => [Step.blank]
  | call result function items =>
    [.line (resultDeclaration config result ++
      callExpression function (callArguments config items))]
  | send ident handed =>
    [.line ("provider.sendOutputData(" ++ ident.constant ++ ", " ++
      handed.expression config ident ++ ");")]

def code (config : Config) (statements : List Statement) : List Step :=
  statements.flatMap (Statement.steps config)

end Body

/-- What has been taken in of the arguments of an option. -/
structure Body where
  /-- The declarations, which stand in front of the call. -/
  declarations : List Body.Statement := []
  /-- Fragments to run before the call. -/
  before : List String := []
  /-- Fragments to run after the call. -/
  after : List String := []
  /-- The statements that hand outputs back. -/
  sends : List Body.Statement := []
  /-- The output that is the return value of the call. -/
  result : Option Argument := none
  deriving Repr, Inhabited

namespace Body

/-! ## Declarations -/

/-- The statements that declare an input. -/
def declareInput (argument : Argument) : List Statement :=
  [.receive argument.ident, .openAccess .read argument.ident,
   .declare argument.nativeType argument.ident (.opened .read)]

/-- The statements that refuse the buffer of a target that must not be written to: an input
    that does not allow it. -/
def guardTarget (ident : Ident) : Node → List Statement
  | .input source false => [.guard ident source.ident]
  | _ => []

/-- The statements that declare a ref input with its target. -/
def declareRefInput (argument : Argument) (target : Node) : List Statement :=
  [.receive argument.ident] ++ guardTarget argument.ident target ++
    [.openAccess .write argument.ident,
     .declare argument.nativeType argument.ident (.opened .write)]

def declareParameter (argument : Argument) : Statement :=
  .declare argument.nativeType argument.ident .member

def declareEnum (argument : Argument) : Statement :=
  .declare argument.nativeType argument.ident .converted

/-! ## Arguments -/

def addFragments (body : Body) (argument : Argument) : Body :=
  { body with
    before := body.before ++ argument.initIn
    after := body.after ++ argument.initOut }

def addDeclarations (body : Body) (statements : List Statement) : Body :=
  { body with declarations := body.declarations ++ statements }

def addSend (body : Body) (ident : Ident) (handed : Handed) : Body :=
  { body with sends := body.sends ++ [.send ident handed] }

/-- Takes in an argument of an option. -/
def add (option : MethodOption) (body : Body) : Node → Except EmitError Body
  | .input argument _ =>
    .ok ((body.addDeclarations (declareInput argument)).addFragments argument)
  | .output argument =>
    match body.result with
    | some first => .error (.secondOutput option.ident argument.ident first.ident)
    | none =>
      .ok (({ body with result := some argument }.addSend argument.ident .wrapped).addFragments
        argument)
  | .refInput argument target =>
    match option.resolve? argument target with
    | none => .error (.unknownReference option.ident argument.ident target)
    | some node =>
      .ok (((body.addDeclarations (declareRefInput argument node)).addSend argument.ident
        .received).addFragments argument)
  | .allocation argument =>
    .ok (((body.addDeclarations [.allocate argument.nativeType argument.ident]).addSend
      argument.ident .wrapped).addFragments argument)
  | .constant c =>
    .ok (body.addDeclarations [.declare c.nativeType c.ident (.literal c.value)])
  | .parameter p =>
    .ok ((body.addDeclarations [declareParameter p.argument]).addFragments p.argument)
  | .numeric n =>
    .ok ((body.addDeclarations [declareParameter n.parameter.argument]).addFragments
      n.parameter.argument)
  | .enumeration e =>
    .ok ((body.addDeclarations [declareEnum e.parameter.argument]).addFragments
      e.parameter.argument)

/-- Takes in arguments in order, up to the first that fails. -/
def addAll (option : MethodOption) : Body → List Node → Except EmitError Body
  | body, [] => .ok body
  | body, node :: rest => do
    let next ← add option body node
    addAll option next rest

/-! ## The whole body -/

/-- The statements in front of the call. -/
def opening (body : Body) : List Statement :=
  body.declarations ++ body.before.map .fragment ++ [.blank]

/-- The statements behind the call. -/
def closing (body : Body) : List Statement :=
  [.blank] ++ body.after.map .fragment ++ body.sends

/-- The statements of a body around a call of a function with items. -/
def statements (function : String) (items : List Item) (body : Body) : List Statement :=
  body.opening ++ [.call body.result function items] ++ body.closing

/-- What an operator does for an option. -/
def ofOption (function : String) (option : MethodOption) : Except EmitError (List Statement) := do
  let body ← addAll option {} option.arguments
  .ok (body.statements function option.items)

end Body
end OperatorGen
