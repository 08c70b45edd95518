import OperatorGen.Proofs.Emission.Bodies
import OperatorGen.Proofs.Emission.Listing
import OperatorGen.Proofs.Ident
import OperatorGen.Proofs.Validation.Validity

/-!
# Parameters in a file

An option executes each of its own arguments by its kind, whereas members, cases and
converters are written for the nodes that were collected, one for each spelling: the first
argument that has it. The two views agree on a parameter exactly if the first argument with
its spelling is a parameter too, and on its converter exactly if that argument is an enum
parameter and no data flow (`rendered_parameters`).
-/
namespace OperatorGen

namespace Node

def isEnumeration : Node → Bool
  | enumeration _ => true
  | _ => false

theorem isParameter_of_isEnumeration {node : Node} (enumeration : node.isEnumeration = true) :
    node.isParameter = true := by
  cases node with
  | enumeration e => rfl
  | _ => cases enumeration

theorem hasId_of_isParameter {node : Node} (parameter : node.isParameter = true) :
    node.hasId = true := by
  cases node with
  | constant c => cases parameter
  | _ => rfl

end Node

/-- Whether the first argument with a spelling, other than a constant, is an enum parameter. -/
def Method.firstIsEnum (method : Method) (ident : Ident) : Bool :=
  (firstNamed? method.arguments ident).any Node.isEnumeration

namespace DataIds

/-- Whether a converter is written for a node. -/
def isConverted (node : Node) : Bool :=
  node.isEnumeration && node.ident ≠ dataFlow

/-- The spellings of the kept parameters for which converters are written. -/
def converted (ids : DataIds) : List Ident :=
  (ids.parameters.filter isConverted).map Node.ident

theorem mem_converted_iff_exists {ids : DataIds} {ident : Ident} :
    ident ∈ ids.converted ↔
      ∃ node ∈ ids.parameters, node.isEnumeration = true ∧ node.ident = ident ∧
        ident ≠ dataFlow := by
  rw [converted, List.mem_map]
  constructor
  · rintro ⟨node, kept, rfl⟩
    rw [List.mem_filter, isConverted, Bool.and_eq_true, decide_eq_true_iff] at kept
    exact ⟨node, kept.1, kept.2.1, rfl, kept.2.2⟩
  · rintro ⟨node, kept, enumeration, rfl, other⟩
    refine ⟨node, ?_, rfl⟩
    rw [List.mem_filter, isConverted, Bool.and_eq_true, decide_eq_true_iff]
    exact ⟨kept, enumeration, other⟩

/-- The nodes that are kept are the parameters which are the first with their spelling. -/
theorem FirstSeen.mem_parameters_iff {nodes : List Node} {ids : DataIds}
    (seen : FirstSeen nodes ids) {node : Node} :
    node ∈ ids.parameters ↔
      firstNamed? nodes node.ident = some node ∧ node.isParameter = true := by
  rw [seen.parameters, List.mem_filter, List.mem_filterMap]
  constructor
  · rintro ⟨⟨ident, -, found⟩, parameter⟩
    obtain ⟨-, -, rfl⟩ := firstNamed?_eq_some found
    exact ⟨found, parameter⟩
  · rintro ⟨found, parameter⟩
    have known : node.ident ∈ ids.ids := by
      rw [seen.mem_ids_iff, found]
      rfl
    exact ⟨⟨node.ident, known, found⟩, parameter⟩

variable {method : Method} {ids : DataIds}

/-- Of all spellings but that of the data flow, the kept nodes are those that are declared. -/
theorem mem_parameters_of_collect (collected : collect method = .ok ids) {node : Node}
    (other : node.ident ≠ dataFlow) :
    node ∈ ids.parameters ↔ node ∈ (declared method).parameters := by
  rcases collect_cases collected with ⟨-, rfl⟩ | ⟨-, free, rfl⟩
  · exact Iff.rfl
  · constructor
    · intro kept
      rcases mem_parameters_add kept with old | ⟨rfl, -⟩
      · exact old
      · exact absurd rfl other
    · intro old
      rw [add_new rfl free]
      exact List.mem_append_left _ old

/-- Among the parameters of a method are those arguments that are the first with their spelling,
    and maybe the data flow. -/
theorem mem_parameters_cases (collected : collect method = .ok ids) {node : Node}
    (kept : node ∈ ids.parameters) :
    (node ∈ method.arguments ∧ firstNamed? method.arguments node.ident = some node) ∨
      node = .enumeration (dataFlowParameter method.options) := by
  have declaredOnly {n : Node} (member : n ∈ (declared method).parameters) :
      n ∈ method.arguments ∧ firstNamed? method.arguments n.ident = some n := by
    obtain ⟨first, -⟩ := (firstSeen_declared method).mem_parameters_iff.mp member
    exact ⟨(firstNamed?_eq_some first).1, first⟩
  rcases collect_cases collected with ⟨-, rfl⟩ | ⟨-, -, rfl⟩
  · exact .inl (declaredOnly kept)
  · rcases mem_parameters_add kept with old | ⟨new, -⟩
    · exact .inl (declaredOnly old)
    · exact .inr new

/-- A parameter that is the first with its spelling is kept. -/
theorem mem_parameters_of_first (collected : collect method = .ok ids) {node : Node}
    (first : firstNamed? method.arguments node.ident = some node)
    (parameter : node.isParameter = true) : node ∈ ids.parameters := by
  have old : node ∈ (declared method).parameters :=
    (firstSeen_declared method).mem_parameters_iff.mpr ⟨first, parameter⟩
  rcases collect_cases collected with ⟨-, rfl⟩ | ⟨-, free, rfl⟩
  · exact old
  · rw [add_new rfl free]
    exact List.mem_append_left _ old

/-- If all arguments with the spelling of a parameter are parameters, one of them is kept. -/
theorem exists_kept (collected : collect method = .ok ids) {node : Node}
    (member : node ∈ method.arguments) (parameter : node.isParameter = true)
    (alike : ∀ n ∈ method.arguments, n.ident = node.ident → n.isParameter = true) :
    ∃ kept ∈ ids.parameters, kept ∈ method.arguments ∧ kept.ident = node.ident := by
  have named : (firstNamed? method.arguments node.ident).isSome = true :=
    isSome_firstNamed?_iff.mpr ⟨node, member, Node.hasId_of_isParameter parameter, rfl⟩
  obtain ⟨first, found⟩ := Option.isSome_iff_exists.mp named
  obtain ⟨inMethod, -, spelled⟩ := firstNamed?_eq_some found
  refine ⟨first, ?_, inMethod, spelled⟩
  exact mem_parameters_of_first collected (spelled ▸ found) (alike first inMethod spelled)

/-- A parameter is kept if all arguments with its spelling are that parameter. -/
theorem mem_parameters_of_sole (collected : collect method = .ok ids) {node : Node}
    (member : node ∈ method.arguments) (parameter : node.isParameter = true)
    (sole : ∀ n ∈ method.arguments, n.ident = node.ident → n = node) : node ∈ ids.parameters := by
  obtain ⟨kept, inIds, inMethod, spelled⟩ := exists_kept collected member parameter
    fun n inMethod spelled => sole n inMethod spelled ▸ parameter
  rwa [sole kept inMethod spelled] at inIds

/-- Converters are written for the spellings whose first argument is an enum parameter, but
    for the data flow. -/
theorem mem_converted_iff (collected : collect method = .ok ids) {ident : Ident} :
    ident ∈ ids.converted ↔ method.firstIsEnum ident = true ∧ ident ≠ dataFlow := by
  rw [mem_converted_iff_exists, Method.firstIsEnum, Option.any_eq_true]
  constructor
  · rintro ⟨node, kept, enumeration, rfl, other⟩
    rw [mem_parameters_of_collect collected other,
      (firstSeen_declared method).mem_parameters_iff] at kept
    exact ⟨⟨node, kept.1, enumeration⟩, other⟩
  · rintro ⟨⟨node, found, enumeration⟩, other⟩
    obtain ⟨-, -, rfl⟩ := firstNamed?_eq_some found
    refine ⟨node, ?_, enumeration, rfl, other⟩
    rw [mem_parameters_of_collect collected other,
      (firstSeen_declared method).mem_parameters_iff]
    exact ⟨found, Node.isParameter_of_isEnumeration enumeration⟩

/-- A parameter of a method is kept exactly if the first argument with its spelling is a
    parameter. -/
theorem mem_parameterIdents_iff (collected : collect method = .ok ids) {node : Node}
    (member : node ∈ method.arguments) (parameter : node.isParameter = true) :
    node.ident ∈ ids.parameterIdents ↔ method.firstIsParameter node.ident = true := by
  have id : node.hasId = true := Node.hasId_of_isParameter parameter
  have known : node.ident ∈ method.idents := by
    rw [Method.idents, List.mem_eraseDups]
    exact List.mem_map_of_mem (List.mem_filter.mpr ⟨member, id⟩)
  have unselected : node.ident ∉ method.selector := by
    -- An argument with the spelling of the data flow leaves no choice of options.
    intro selects
    have distinct := (orderly_of_collect collected).distinct
    rw [ids_of_collect collected, List.nodup_append] at distinct
    exact distinct.2.2 node.ident known node.ident selects rfl
  rw [parameterIdents_of_collect collected, List.mem_append, List.mem_filter]
  constructor
  · rintro (⟨-, first⟩ | selects)
    · exact first
    · exact absurd selects unselected
  · intro first
    exact .inl ⟨known, first⟩

end DataIds

/-! ## Converters -/

namespace Body

/-- The line that declares the native variable of an enum parameter, whose value is converted. -/
def convertLine (config : Config) (argument : Argument) : String :=
  argument.nativeType ++ " " ++ config.dataName argument.ident ++ " = " ++
    ("convert" ++ argument.ident.className ++ "(" ++ argument.ident.member ++ ")") ++ ";"

/-- The body of an option calls the converters of its enum parameters. -/
theorem convertLine_mem_code (config : Config) {function : String} {option : MethodOption}
    {statements : List Statement} (made : ofOption function option = .ok statements)
    {enumeration : EnumParameter} (member : .enumeration enumeration ∈ option.arguments) :
    .line (convertLine config enumeration.parameter.argument) ∈ code config statements := by
  have declared : .declare enumeration.parameter.argument.nativeType
      enumeration.parameter.argument.ident .converted ∈
        option.arguments.flatMap (declarationsOf option) :=
    List.mem_flatMap.mpr ⟨_, member, List.mem_cons_self⟩
  have inFront : option.arguments.flatMap (declarationsOf option) <+: statements := by
    rw [ofOption_eq made]
    simp only [List.append_assoc]
    exact List.prefix_append _ _
  exact List.mem_flatMap.mpr ⟨_, inFront.subset declared, List.mem_cons_self⟩

end Body

namespace Emission

/-- Definitions of the converters of parameters in order, each with an empty line in front. -/
inductive Converters (config : Config) (className : String) : List Ident → List Step → Prop
  | nil : Converters config className [] []
  | cons {ident : Ident} {idents : List Ident} {nativeType : String} {body steps : List Step}
      (others : Converters config className idents steps) :
    Converters config className (ident :: idents)
      ([Step.line "",
        .line (nativeType ++ " " ++ className ++ "::" ++ ("convert" ++ ident.className) ++
          "(const " ++ config.runtime "Enum" ++ " & value)")] ++ Step.scope body ++ steps)

theorem converters_nodes (config : Config) (className : String) (nodes : List Node) :
    Converters config className ((nodes.filter DataIds.isConverted).map Node.ident)
      (nodes.flatMap (nodeConverter config className)) := by
  induction nodes with
  | nil => exact .nil
  | cons node rest ih =>
    rw [List.flatMap_cons]
    cases node with
    | enumeration e =>
      by_cases flow : e.parameter.argument.ident = dataFlow
      · have none : DataIds.isConverted (.enumeration e) = false := by
          simp [DataIds.isConverted, Node.ident, flow]
        rw [List.filter_cons_of_neg (by simp [none]), nodeConverter, if_pos flow]
        exact ih
      · have one : DataIds.isConverted (.enumeration e) = true := by
          simp [DataIds.isConverted, Node.isEnumeration, Node.ident, flow]
        rw [List.filter_cons_of_pos one, nodeConverter, if_neg flow]
        exact .cons ih
    | _ => exact ih

/-- Steps of a file define converters, behind the function that initializes the operator, and
    nothing else stands between them and what is executed. -/
def Defines (config : Config) (className : String) (converted : List Ident)
    (executed steps : List Step) : Prop :=
  ∃ converters, Converters config className converted converters ∧
    [Step.line ("void " ++ className ++ "::initialize()")] ++
      Step.scope
        [Step.line (config.runtime "OperatorKernel" ++
          "::initialize(setupInputs(), setupOutputs(), setupParameters());")] ++
      converters ++
      [Step.line ""] ++
      ([Step.line ("void " ++ className ++ "::execute(" ++ config.runtime "DataProvider" ++
          " & provider)")] ++ Step.scope executed) <:+: steps

/-- What a file has for the parameters of an option: whether each of them is kept, and whether
    the converters that are called for it are written. -/
structure OptionParameters (config : Config) (ids : DataIds) (option : MethodOption)
    (executed : List Step) (kept converted : Ident → Prop) : Prop where
  parameters : ∀ node ∈ option.arguments, node.isParameter = true →
    (node.ident ∈ ids.parameterIdents ↔ kept node.ident)
  calls : ∀ enumeration, .enumeration enumeration ∈ option.arguments →
    .line (Body.convertLine config enumeration.parameter.argument) ∈ executed
  converters : ∀ enumeration, .enumeration enumeration ∈ option.arguments →
    (converterName enumeration.parameter.argument.ident ∈ ids.converted.map converterName ↔
      converted enumeration.parameter.argument.ident)

/-- The file of a method initialises, gets and sets those parameters of its options that are
    kept, and defines those converters that are written. -/
def FileParameters (config : Config) (method : Method) (text : String)
    (kept converted : Ident → Prop) : Prop :=
  ∃ (ids : DataIds) (executed : MethodOption → List Step) (selected steps : List Step),
    DataIds.collect method = .ok ids ∧
      text = Document.render config.indentWidth steps ∧
      Lists config method.ident.className (ids.ids.map Ident.constant) ids.parameterIdents steps ∧
      Setup.Selects (SelectsOption method) method executed selected ∧
      Defines config method.ident.className ids.converted selected steps ∧
      ∀ option ∈ method.options,
        OptionParameters config ids option (executed option) kept converted

variable {config : Config} {package : Package} {method : Method} {ids : DataIds}
  {executed : List Step}

theorem defines_fileSteps :
    Defines config method.ident.className ids.converted executed
      (fileSteps config package method (partsOf config method ids executed)) := by
  have defined := @converters_infix_fileSteps config package method
    (partsOf config method ids executed)
  exact ⟨_, converters_nodes config method.ident.className ids.parameters, defined⟩

/-- Arguments of a method that tells its arguments apart have converters of their own. -/
theorem ident_eq_of_converterName_eq (distinguishes : Validation.Distinguishes method)
    {node other : Node} (member : node ∈ method.arguments) (otherMember : other ∈ method.arguments)
    (same : converterName node.ident = converterName other.ident) : node.ident = other.ident := by
  have classes : node.ident.className = other.ident.className := (String.append_right_inj _).mp same
  exact distinguishes node member other otherMember (Ident.constant_eq_of_className_eq classes)

/-- The converters that are written are those of arguments. -/
theorem exists_of_mem_converted (collected : DataIds.collect method = .ok ids) {ident : Ident}
    (converted : ident ∈ ids.converted) : ∃ node ∈ method.arguments, node.ident = ident := by
  obtain ⟨first, -⟩ := (DataIds.mem_converted_iff collected).mp converted
  rw [Method.firstIsEnum, Option.any_eq_true] at first
  obtain ⟨node, found, -⟩ := first
  obtain ⟨member, -, spelled⟩ := firstNamed?_eq_some found
  exact ⟨node, member, spelled⟩

theorem mem_map_converterName_iff (distinguishes : Validation.Distinguishes method)
    (collected : DataIds.collect method = .ok ids) {node : Node}
    (member : node ∈ method.arguments) :
    converterName node.ident ∈ ids.converted.map converterName ↔ node.ident ∈ ids.converted := by
  constructor
  · intro written
    obtain ⟨ident, converted, same⟩ := List.mem_map.mp written
    obtain ⟨other, otherMember, rfl⟩ := exists_of_mem_converted collected converted
    rwa [← ident_eq_of_converterName_eq distinguishes otherMember member same]
  · exact List.mem_map_of_mem

/-- In the file of a method of a valid package, a parameter of an option is initialised, got
    and set exactly if the first argument with its spelling is a parameter, and the converter
    that the option calls is defined exactly if the first argument is an enum parameter, and
    no data flow. -/
theorem rendered_parameters {text : String} (valid : Validation.problems package = [])
    (member : method ∈ package.methods)
    (rendered : renderMethod config package method = .ok text) :
    FileParameters config method text
      (fun ident => method.firstIsParameter ident = true)
      (fun ident => method.firstIsEnum ident = true ∧ ident ≠ dataFlow) := by
  have distinguishes : Validation.Distinguishes method :=
    ((Validation.problems_eq_nil_iff.mp valid).methods method member).enumerators
  obtain ⟨ids, body, collected, bodies, same⟩ := exists_bodies rendered
  have decides := DataIds.hasDataFlow_iff collected
  refine ⟨ids, _, _, _, collected, same, lists_fileSteps collected,
    Setup.selects_forEachOption decides, defines_fileSteps, ?_⟩
  intro option inMethod
  have arguments : ∀ node ∈ option.arguments, node ∈ method.arguments := fun node inOption =>
    List.mem_flatMap.mpr ⟨option, inMethod, inOption⟩
  constructor
  case parameters =>
    intro node inOption parameter
    exact DataIds.mem_parameterIdents_iff collected (arguments node inOption) parameter
  case calls =>
    intro enumeration inOption
    exact Body.convertLine_mem_code config (bodies option inMethod) inOption
  case converters =>
    intro enumeration inOption
    exact (mem_map_converterName_iff distinguishes collected (arguments _ inOption)).trans
      (DataIds.mem_converted_iff collected)

/-- A method with a choice of options, the first of which has one argument; the second has a
    parameter `ksize` and an enum parameter `mode`. -/
def sharedMethod (first : Node) : Method where
  ident := ⟨"blur"⟩
  options := [
    { ident := ⟨"manual"⟩, items := [.node first] },
    { ident := ⟨"allocate"⟩
      items := [
        .node (.parameter
          { argument := { ident := ⟨"ksize"⟩, nativeType := "int", wrapperType := "Int32" } }),
        .node (.enumeration
          { EnumParameter.make ⟨"mode"⟩ "" with
            descriptions := [EnumDescription.make ⟨"fast"⟩ "" none] })] }]

/-- The package of such a method. -/
def sharedPackage (first : Node) : Package where
  ident := ⟨"vision"⟩
  version := ⟨1, 0, 0⟩
  methods := [sharedMethod first]

/-- A numeric parameter `ksize`. -/
def numericNode : Node :=
  .numeric { parameter := { argument := { ident := ⟨"ksize"⟩, nativeType := "int" } } }

/-- With a numeric parameter `ksize` in the first option, both spellings belong to parameters,
    and `mode` has a converter. -/
theorem numeric_parameters :
    ∃ text, renderMethod .standard (sharedPackage numericNode) (sharedMethod numericNode) =
        .ok text ∧
      FileParameters .standard (sharedMethod numericNode) text
        (fun ident => (sharedMethod numericNode).firstIsParameter ident = true)
        (fun ident => (sharedMethod numericNode).firstIsEnum ident = true ∧ ident ≠ dataFlow) ∧
      (sharedMethod numericNode).firstIsParameter ⟨"ksize"⟩ = true ∧
      (sharedMethod numericNode).firstIsEnum ⟨"mode"⟩ = true := by
  obtain ⟨text, rendered⟩ : ∃ text, renderMethod .standard (sharedPackage numericNode)
      (sharedMethod numericNode) = .ok text := ⟨_, rfl⟩
  have valid : Validation.problems (sharedPackage numericNode) = [] := by decide
  exact ⟨text, rendered, rendered_parameters valid (by simp [sharedPackage]) rendered,
    by decide, by decide⟩

/-- An input `ksize`. -/
def inputNode : Node :=
  .input { ident := ⟨"ksize"⟩ } false

/-- A parameter need not be kept: in a valid package an input may take its spelling in an option
    before, and then it is not initialised, got and set. -/
theorem lost_parameter_accepted :
    ¬ ∀ (config : Config) (package : Package) (method : Method) (text : String),
      Validation.problems package = [] → method ∈ package.methods →
        renderMethod config package method = .ok text →
          FileParameters config method text (fun _ => True) (fun _ => True) := by
  intro keeps
  have valid : Validation.problems (sharedPackage inputNode) = [] := by decide
  obtain ⟨text, rendered⟩ : ∃ text, renderMethod .standard (sharedPackage inputNode)
      (sharedMethod inputNode) = .ok text := ⟨_, rfl⟩
  obtain ⟨ids, executed, selected, steps, collected, -, -, -, -, options⟩ :=
    keeps .standard _ _ text valid (by simp [sharedPackage]) rendered
  obtain rfl : _ = ids := Except.ok.inj collected
  -- The second option uses the parameter.
  have parameters := options _ (List.mem_cons_of_mem _ List.mem_cons_self)
  have kept := (parameters.parameters _ List.mem_cons_self rfl).mpr trivial
  exact absurd kept (by decide)

end Emission
end OperatorGen
