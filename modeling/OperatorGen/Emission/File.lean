import OperatorGen.Emission.Access
import OperatorGen.Emission.Body
import OperatorGen.Emission.Setup
import OperatorGen.Text.Lines
import OperatorGen.Text.Path

/-!
# Source files of operators

The source file of a method: a header, then in the namespace of the package the constants
and ids, the functions of the operator one after another, and last what it executes. A
package has one file for each method, in a directory with the name of the package.
-/
namespace OperatorGen.Emission

/-! ## Header -/

def comment (text : String) : Step :=
  .line ("// " ++ text)

/-- The display name and the documentation of a method. -/
def header (method : Method) : List Step :=
  (if method.name.isEmpty then [] else [comment method.name]) ++
    (Lines.split method.doc).map comment

/-- The header file of the operator. -/
def includeStep (package : Package) (method : Method) : Step :=
  .line ("#include \"" ++ package.ident.text ++ "/" ++ method.ident.className ++ ".h\"")

/-! ## Constants and ids -/

/-- The names of the package and the operator, and the version. -/
def constants (config : Config) (package : Package) (className : String) : List Step :=
  let version := package.version
  [.line ("const std::string " ++ className ++ "::PACKAGE(\"" ++ package.ident.text ++ "\");"),
   .line ("const " ++ config.runtime "Version" ++ " " ++ className ++ "::VERSION(" ++
    toString version.major.toNat ++ ", " ++ toString version.minor.toNat ++ ", " ++
    toString version.patch.toNat ++ ");"),
   .line ("const std::string " ++ className ++ "::TYPE(\"" ++ className ++ "\");")]

/-- An enumeration; every enumerator but the last has a comma. -/
def enumeration (name : String) (enumerators : List String) : List Step :=
  [.line ("enum " ++ name), .line "\x7b"] ++
    Step.nested ((Setup.separated enumerators).map .line) ++ [.line "\x7d;"]

/-- The ids of a method, and with a data flow those of its options. -/
def idEnumerations (ids : DataIds) (method : Method) : List Step :=
  enumeration "DataId" (ids.ids.map Ident.constant) ++
    (if ids.hasDataFlow then
      [Step.blank] ++
        enumeration "DataFlowId" (method.options.map fun option => option.ident.constant)
    else [])

/-! ## Converters -/

/-- The case that converts an index. -/
def convertCase (index : Nat) (description : EnumDescription) : List Step :=
  [.line ("case " ++ toString index ++ ":")] ++
    Step.nested [.line ("return " ++ description.nativeIdent ++ ";")]

/-- The function that converts the index of a value to the native enumerator. -/
def converter (config : Config) (className : String) (parameter : EnumParameter) : List Step :=
  let argument := parameter.parameter.argument
  [.line (argument.nativeType ++ " " ++ className ++ "::" ++ converterName argument.ident ++
      "(const " ++ config.runtime "Enum" ++ " & value)")] ++
    Step.scope
      ([.line "switch(int(value))", .line "\x7b"] ++
        (parameter.descriptions.mapIdx convertCase).flatten ++
        [.line "default:"] ++
        Step.nested
          [.line ("throw " ++ config.runtime "WrongParameterValue" ++ "(parameter(" ++
            argument.ident.constant ++ "), *this);")] ++
        [.line "\x7d"])

/-- The converter of a parameter, after an empty line; only enum parameters other than the
    data flow have one. -/
def nodeConverter (config : Config) (className : String) : Node → List Step
  | .enumeration e =>
    if e.parameter.argument.ident = dataFlow then []
    else Step.blank :: converter config className e
  | _ => []

/-! ## Execution -/

def optionCode (config : Config) (method : Method) (option : MethodOption) :
    Except EmitError (List Step) :=
  (Body.ofOption method.nativeFunction option).map (Body.code config)

def execute (config : Config) (className : String) (body : List Step) : List Step :=
  [.line ("void " ++ className ++ "::execute(" ++ config.runtime "DataProvider" ++
      " & provider)")] ++
    Step.scope body

/-! ## Files -/

/-- What is particular to a method in its file: the ids, and for every function that looks at
    the parameters or at the options what it holds. -/
structure Parts where
  ids : DataIds
  setCases : List Step
  initParameters : List Step
  parameters : List Step
  inputs : List Step
  outputs : List Step
  executed : List Step
  deriving Repr, Inhabited

/-- The parts of the file of a method. -/
def parts (config : Config) (method : Method) : Except EmitError Parts := do
  let ids ← DataIds.collect method
  let executed ← Setup.tryForEachOption ids method (optionCode config method)
  .ok
    { ids
      setCases := ids.parameters.flatMap (Access.setNodeCase config)
      initParameters := Setup.initDescriptions config ids
      parameters := Setup.forEachOption ids method (Setup.laterDescriptions config)
      inputs := Setup.forEachOption ids method (Setup.connectionSteps config .inputs)
      outputs := Setup.forEachOption ids method (Setup.connectionSteps config .outputs)
      executed }

/-- The sections of a file in order, with empty lines between them. -/
def sections : List (List Step) → List Step
  | [] => []
  | [last] => last
  | first :: rest => first ++ [Step.blank] ++ sections rest

/-- What stands in the namespace of the package. -/
def content (config : Config) (package : Package) (method : Method) (parts : Parts) :
    List Step :=
  let className := method.ident.className
  let ids := parts.ids
  sections
      [constants config package className,
       idEnumerations ids method,
       Setup.constructor config className ids,
       Access.getter config className ids,
       Access.setter config className parts.setCases,
       Setup.initParameters config className parts.initParameters,
       Setup.parameters config className ids parts.parameters,
       Setup.connectors config className ids .inputs parts.inputs,
       Setup.connectors config className ids .outputs parts.outputs,
       Setup.initialization config className] ++
    ids.parameters.flatMap (nodeConverter config className) ++
    [Step.blank] ++ execute config className parts.executed

/-- The steps of the source file of a method, given its parts. -/
def fileSteps (config : Config) (package : Package) (method : Method) (parts : Parts) :
    List Step :=
  header method ++
    [includeStep package method, Step.blank, .line ("namespace " ++ package.ident.text)] ++
    Step.scope (content config package method parts)

/-- The source file of a method. -/
def renderMethod (config : Config) (package : Package) (method : Method) :
    Except EmitError String := do
  let parts ← parts config method
  .ok (Document.render config.indentWidth (fileSteps config package method parts))

/-- A generated file: a path inside the output directory, and what is in it. -/
structure File where
  path : String
  contents : String
  deriving DecidableEq, Repr, Inhabited

def filePath (package : Package) (method : Method) : String :=
  Path.join package.ident.text (method.ident.className ++ ".cpp")

/-- The files of methods of a package in order, up to the first that fails to render. -/
def renderMethods {ε : Type} (package : Package) (render : Method → Except ε String) :
    List Method → Except ε (List File)
  | [] => .ok []
  | method :: rest => do
    let contents ← render method
    let others ← renderMethods package render rest
    .ok (⟨filePath package method, contents⟩ :: others)

/-- The files of a package, one for each method. -/
def renderPackage (config : Config) (package : Package) : Except EmitError (List File) :=
  renderMethods package (renderMethod config package) package.methods

/-- The files of packages in order, up to the first that fails. -/
def renderPackages (config : Config) : List Package → Except EmitError (List File)
  | [] => .ok []
  | package :: rest => do
    let files ← renderPackage config package
    let others ← renderPackages config rest
    .ok (files ++ others)

end OperatorGen.Emission
