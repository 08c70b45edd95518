import OperatorGen.Definition.Package
import OperatorGen.Number.Decimal

/-!
# Validation

The problems of a package that no code can be emitted for, or only wrong code. All problems
are collected, in the order of a walk. Enumerators are shared by all options of a method,
so the first spelling seen with an enumerator is remembered through the whole method, and
every later argument with the same enumerator must have the same spelling.
-/
namespace OperatorGen

/-- What a spelling belongs to. -/
inductive Role where
  | package
  | method
  | option
  | argument
  | enumDescription
  deriving DecidableEq, Repr, Inhabited

def Role.label : Role → String
  | package => "package"
  | method => "method"
  | option => "option"
  | argument => "argument"
  | enumDescription => "enum description"

/-- An option of a method, as a diagnostic names it. -/
structure Scope where
  method : Ident
  option : Ident
  deriving DecidableEq, Repr, Inhabited

def Scope.label (scope : Scope) : String :=
  scope.method.text ++ "." ++ scope.option.text

/-- Why a package cannot be emitted as it is. -/
inductive Problem where
  | invalidIdent (role : Role) (ident : Ident)
  | severalOutputs (scope : Scope) (count : Nat)
  | sizeArity (scope : Scope) (label : String) (count : Nat)
  | collision (scope : Scope) (seen ident : Ident)
  | unknownReference (scope : Scope) (ident target : Ident)
  | invertedBounds (scope : Scope) (ident : Ident) (min max : String)
  | noDescriptions (scope : Scope) (ident : Ident)
  deriving DecidableEq, Repr, Inhabited

namespace Problem

def quote (text : String) : String :=
  "`" ++ text ++ "`"

def message : Problem → String
  | invalidIdent role ident =>
    role.label ++ " ident " ++ quote ident.text ++ " is not a valid identifier"
  | severalOutputs scope count =>
    scope.label ++ ": " ++ toString count ++
      " outputs, but the native call has a single return value"
  | sizeArity scope label count =>
    scope.label ++ ": size compound " ++ quote label ++ " needs exactly 2 arguments, got " ++
      toString count
  | collision scope seen ident =>
    scope.label ++ ": " ++ quote seen.text ++ " and " ++ quote ident.text ++
      " both map to id " ++ quote ident.constant
  | unknownReference scope ident target =>
    scope.label ++ ": " ++ quote ident.text ++ " references unknown argument " ++
      quote target.text
  | invertedBounds scope ident min max =>
    scope.label ++ ": " ++ quote ident.text ++ " has min " ++ min ++ " greater than max " ++ max
  | noDescriptions scope ident =>
    scope.label ++ ": enum " ++ quote ident.text ++ " has no descriptions"

def messages (problems : List Problem) : String :=
  "; ".intercalate (problems.map message)

end Problem

namespace Validation

/-! ## Checks -/

/-- A spelling must be an identifier. -/
def checkIdent (role : Role) (ident : Ident) : List Problem :=
  if ident.isValid then [] else [.invalidIdent role ident]

/-- The native call has one return value. -/
def checkOutputs (scope : Scope) (option : MethodOption) : List Problem :=
  let count := option.arguments.countP Node.isOutput
  if 1 < count then [.severalOutputs scope count] else []

/-- A size has two constituents. -/
def checkItem (scope : Scope) : Item → List Problem
  | .compound ⟨.size, arguments⟩ =>
    if arguments.length ≠ 2 then
      [.sizeArity scope (Compound.label ⟨.size, arguments⟩) arguments.length]
    else []
  | _ => []

/-- Two bounds that are both literals must be in order. -/
def checkBounds (scope : Scope) (ident : Ident) : Option String → Option String → List Problem
  | some min, some max =>
    match Literal.read? min, Literal.read? max with
    | some low, some high =>
      if low.toBinary64.exceeds high.toBinary64 then [.invertedBounds scope ident min max]
      else []
    | _, _ => []
  | _, _ => []

/-- A ref input must have a target, bounds must be in order, and an enum parameter must have
    descriptions with proper spellings. -/
def checkNode (scope : Scope) (option : MethodOption) : Node → List Problem
  | .refInput argument target =>
    if (option.resolve? argument target).isNone then
      [.unknownReference scope argument.ident target]
    else []
  | .numeric n => checkBounds scope n.parameter.argument.ident n.min n.max
  | .enumeration e =>
    (if e.descriptions.isEmpty then [.noDescriptions scope e.parameter.argument.ident] else []) ++
      e.descriptions.flatMap fun description => checkIdent .enumDescription description.ident
  | _ => []

/-! ## Enumerators -/

/-- The first spelling seen with each enumerator. -/
abbrev Seen : Type :=
  List (String × Ident)

/-- The first spelling seen with an enumerator. -/
def Seen.find? (seen : Seen) (constant : String) : Option Ident :=
  (List.find? (fun entry => entry.1 = constant) seen).map Prod.snd

/-- An enumerator belongs to one spelling; a spelling whose enumerator has not been seen is
    remembered. -/
def checkConstant (scope : Scope) (seen : Seen) (ident : Ident) : Seen × List Problem :=
  match seen.find? ident.constant with
  | some first => (seen, if first = ident then [] else [.collision scope first ident])
  | none => ((ident.constant, ident) :: seen, [])

/-- The problems of the arguments of an option in order. -/
def checkArguments (scope : Scope) (option : MethodOption) :
    Seen → List Node → Seen × List Problem
  | seen, [] => (seen, [])
  | seen, node :: rest =>
    let (between, collisions) := checkConstant scope seen node.ident
    let (after, others) := checkArguments scope option between rest
    (after, checkIdent .argument node.ident ++ collisions ++ checkNode scope option node ++ others)

/-! ## Packages -/

def checkOption (method : Ident) (seen : Seen) (option : MethodOption) : Seen × List Problem :=
  let scope : Scope := ⟨method, option.ident⟩
  let (after, problems) := checkArguments scope option seen option.arguments
  (after, checkIdent .option option.ident ++ checkOutputs scope option ++
    option.items.flatMap (checkItem scope) ++ problems)

def checkOptions (method : Ident) : Seen → List MethodOption → Seen × List Problem
  | seen, [] => (seen, [])
  | seen, option :: rest =>
    let (between, problems) := checkOption method seen option
    let (after, others) := checkOptions method between rest
    (after, problems ++ others)

def checkMethod (method : Method) : List Problem :=
  checkIdent .method method.ident ++ (checkOptions method.ident [] method.options).2

def problems (package : Package) : List Problem :=
  checkIdent .package package.ident ++ package.methods.flatMap checkMethod

/-- Whether nothing is wrong with a package. -/
def accepts (package : Package) : Bool :=
  (problems package).isEmpty

end Validation
end OperatorGen
