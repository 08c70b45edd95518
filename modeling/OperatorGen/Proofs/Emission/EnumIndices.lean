import Mathlib.Order.Bounds.Basic
import OperatorGen.Proofs.Emission.DataFlow
import OperatorGen.Proofs.Emission.Literals
import OperatorGen.Proofs.Emission.Parameters
import OperatorGen.Proofs.Text.Occurrence

/-!
# Indices of enum parameters

The runtime knows a value of an enum parameter by its index among the descriptions. The index
is written by three emitters: where the values are registered with the runtime, where the
converter takes them to native enumerators, and where the constructor initialises the member
of the parameter. All of them count the descriptions in order from zero, and the default has
the index of the first description with its spelling (`rendered_indices`). A value is
registered under its display name exactly if the name has no backslash, as the literal of the
name escapes quotes only.
-/
namespace OperatorGen

/-- The description at an index is spelled like the default. -/
def EnumParameter.DefaultsTo (enumeration : EnumParameter) (index : Nat) : Prop :=
  ∃ description, enumeration.descriptions[index]? = some description ∧
    enumeration.parameter.default = some description.ident.text

namespace Setup

/-- A literal is read as the display name of a description. -/
def Names (literal : String) (description : EnumDescription) : Prop :=
  readLiteral? literal.toList = some description.title.toList

/-- A literal is read as the display name of a description unless that has a backslash. -/
def NamesPlain (literal : String) (description : EnumDescription) : Prop :=
  Names literal description ↔ '\\' ∉ description.title.toList

/-- A line that registers the index of a description among the values of an enum parameter,
    with a literal for its name. -/
def Registers (config : Config) (parameter : Parameter)
    (named : String → EnumDescription → Prop) (entry : EnumDescription × Nat) (step : Step) :
    Prop :=
  ∃ literal, named literal entry.1 ∧
    step = .line (parameter.argument.ident.member ++ "Parameter" ++ "->add(" ++
      config.runtime "EnumDescription" ++ "(" ++ config.runtime "Enum" ++ "(" ++
      toString entry.2 ++ "), " ++ literal ++ "));")

/-- The description of an enum parameter for the runtime, in which the line at an index
    registers that index for the description that has it. -/
def Describes (config : Config) (enumeration : EnumParameter)
    (named : String → EnumDescription → Prop) (steps : List Step) : Prop :=
  ∃ adds, List.Forall₂ (Registers config enumeration.parameter named)
      enumeration.descriptions.zipIdx adds ∧
    steps = descriptionLines config enumeration.parameter
      (config.runtime "EnumParameter" ++ "(" ++
        enumeration.parameter.argument.ident.constant ++ ")") adds

/-- An enum parameter other than the data flow is described by its indices. -/
theorem describes_parameterLines (config : Config) {enumeration : EnumParameter}
    (other : enumeration.parameter.argument.ident ≠ dataFlow) :
    Describes config enumeration NamesPlain (parameterLines config (.enumeration enumeration)) := by
  refine ⟨_, ?_, rfl⟩
  rw [List.mapIdx_eq_zipIdx_map, List.forall₂_map_right_iff, List.forall₂_same]
  rintro ⟨description, index⟩ -
  refine ⟨nameLiteral description, readLiteral?_nameLiteral_iff description, ?_⟩
  simp only [addLine, if_neg other]

/-! ## Default -/

/-- The search for the default finds the least index of a description with its spelling. -/
theorem isLeast_of_findIdx? {enumeration : EnumParameter} {default : String} {index : Nat}
    (given : enumeration.parameter.default = some default)
    (found : (enumeration.descriptions.findIdx? fun description =>
      description.ident.text = default) = some index) :
    IsLeast {i | enumeration.DefaultsTo i} index := by
  obtain ⟨bound, spelled, others⟩ := List.findIdx?_eq_some_iff_getElem.mp found
  constructor
  · refine ⟨enumeration.descriptions[index], List.getElem?_eq_getElem bound, ?_⟩
    rw [given, of_decide_eq_true spelled]
  · rintro i ⟨description, present, same⟩
    obtain ⟨inside, rfl⟩ := List.getElem?_eq_some_iff.mp present
    rw [given, Option.some.injEq] at same
    by_contra before
    exact others i (Nat.lt_of_not_le before) (decide_eq_true same.symm)

/-- A default that is the spelling of a description becomes the least index of one. -/
theorem initialValue_of_defaultsTo {enumeration : EnumParameter}
    (described : ∃ index, enumeration.DefaultsTo index) :
    ∃ index, IsLeast {i | enumeration.DefaultsTo i} index ∧
      initialValue (.enumeration enumeration) = toString index := by
  obtain ⟨_, description, present, given⟩ := described
  have spelled : enumeration.descriptions.any
      (fun d => d.ident.text = description.ident.text) = true :=
    List.any_eq_true.mpr ⟨description, List.mem_of_getElem? present, decide_eq_true rfl⟩
  rw [← List.findIdx?_isSome] at spelled
  obtain ⟨index, found⟩ := Option.isSome_iff_exists.mp spelled
  refine ⟨index, isLeast_of_findIdx? given found, ?_⟩
  simp [initialValue, Node.parameter?, given, found]

end Setup

namespace Emission

/-! ## Converters -/

/-- The case of an index as it is read in a converter. -/
def convertHeading (entry : EnumDescription × Nat) : Heading :=
  ⟨"case " ++ toString entry.2 ++ ":",
    Step.nested [.line ("return " ++ entry.1.nativeIdent ++ ";")]⟩

/-- The code of a converter, as it is read, is a switch with a case for each index in order,
    which returns the native enumerator of the description that has the index. Any other
    value is refused. -/
def Converts (enumeration : EnumParameter) (code : List Step) : Prop :=
  ∃ refusal, Step.headings code =
    [Step.bare "switch(int(value))", Step.bare "\x7b"] ++
      enumeration.descriptions.zipIdx.map convertHeading ++
      [⟨"default:", Step.nested [.line refusal]⟩, Step.bare "\x7d"]

/-- The signature of the converter of a parameter. -/
def converterSignature (config : Config) (className : String) (enumeration : EnumParameter) :
    String :=
  let argument := enumeration.parameter.argument
  argument.nativeType ++ " " ++ className ++ "::" ++ converterName argument.ident ++ "(const " ++
    config.runtime "Enum" ++ " & value)"

theorem headings_converter (descriptions : List EnumDescription) (refusal : String) :
    Step.headings ([Step.line "switch(int(value))", .line "\x7b"] ++
        (descriptions.mapIdx convertCase).flatten ++ [Step.line "default:"] ++
        Step.nested [Step.line refusal] ++ [Step.line "\x7d"]) =
      [Step.bare "switch(int(value))", Step.bare "\x7b"] ++
        descriptions.zipIdx.map convertHeading ++
        [⟨"default:", Step.nested [Step.line refusal]⟩, Step.bare "\x7d"] := by
  have leveled (text : String) : Leveled [Step.line text] := .line text .nil
  have behind := Step.headings_line_nested "default:" (leveled refusal)
    (Step.beginsLine_line "\x7d" [])
  have switch := Step.headings_switch descriptions.zipIdx
    (fun entry => "case " ++ toString entry.2 ++ ":")
    (fun entry => leveled ("return " ++ entry.1.nativeIdent ++ ";"))
    (Step.beginsLine_line "default:" (Step.nested [Step.line refusal] ++ [Step.line "\x7d"]))
    "switch(int(value))"
  rw [List.mapIdx_eq_zipIdx_map, ← List.flatMap_def, List.append_assoc, List.append_assoc]
  exact switch.trans (congrArg _ behind)

theorem exists_converts (config : Config) (className : String) (enumeration : EnumParameter) :
    ∃ code, Converts enumeration code ∧
      converter config className enumeration =
        [.line (converterSignature config className enumeration)] ++ Step.scope code :=
  ⟨_, ⟨_, headings_converter enumeration.descriptions _⟩, rfl⟩

/-! ## Files -/

/-- The constructor initialises the member of a parameter with a value, and behind the base
    class it initialises besides it only members of parameters with other spellings. -/
def InitializesWith (config : Config) (className : String) (ident : Ident) (value : String)
    (steps : List Step) : Prop :=
  ∃ (front back : List Ident) (before behind : List String), ident ∉ front ++ back ∧
    List.Forall₂ Setup.Initializes front before ∧ List.Forall₂ Setup.Initializes back behind ∧
    [Step.line (className ++ "::" ++ className ++ "()")] ++
      (Setup.commaSeparated
        (("  : " ++ config.runtime "OperatorKernel" ++
            "(TYPE, PACKAGE, VERSION, setupInitParameters())") ::
          (before ++ ("    " ++ ident.member ++ "(" ++ value ++ ")") :: behind))).map .line ++
      Step.scope [] <:+: steps

/-- A file has the description of an enum parameter: among those of the parameters that are
    set before the initialization, or else for each option that has the parameter. -/
structure HasDescription (config : Config) (method : Method) (enumeration : EnumParameter)
    (description steps : List Step) : Prop where
  early : enumeration.parameter.isInit = true → ∃ entries, description <:+: entries ∧
    ListsAll config method.ident.className "setupInitParameters" "Parameter" "parameters" entries
      steps
  later : enumeration.parameter.isInit = false → ∃ entries : MethodOption → List Step,
    (∀ option ∈ method.options, .enumeration enumeration ∈ option.arguments →
      description <:+: entries option) ∧
    ListsByOption config method "setupParameters" "Parameter" "parameters" entries steps

/-- The steps of a file number the values of an enum parameter: its description registers
    them, its converter takes them apart, and its default is one of them. -/
structure NumbersValues (config : Config) (method : Method) (enumeration : EnumParameter)
    (named : String → EnumDescription → Prop) (steps : List Step) : Prop where
  description : ∃ description, Setup.Describes config enumeration named description ∧
    HasDescription config method enumeration description steps
  converter : ∃ code, Converts enumeration code ∧
    HasFunction (converterSignature config method.ident.className enumeration) code steps
  initial : (∃ index, enumeration.DefaultsTo index) →
    ∃ index, IsLeast {i | enumeration.DefaultsTo i} index ∧
      InitializesWith config method.ident.className enumeration.parameter.argument.ident
        (toString index) steps

variable {config : Config} {package : Package} {method : Method} {ids : DataIds}
  {executed : List Step} {enumeration : EnumParameter}

theorem hasDescription_fileSteps (collected : DataIds.collect method = .ok ids)
    (kept : .enumeration enumeration ∈ ids.parameters) :
    HasDescription config method enumeration
      (Setup.parameterLines config (.enumeration enumeration))
      (fileSteps config package method (partsOf config method ids executed)) := by
  constructor
  · intro early
    exact ⟨_, Setup.parameterLines_infix kept rfl early, listsAll_fileSteps⟩
  · intro later
    exact ⟨_, fun option _ present => Setup.parameterLines_infix present rfl later,
      listsByOption_parameters collected⟩

theorem converter_infix_fileSteps (kept : .enumeration enumeration ∈ ids.parameters)
    (other : enumeration.parameter.argument.ident ≠ dataFlow) :
    converter config method.ident.className enumeration <:+:
      fileSteps config package method (partsOf config method ids executed) := by
  have written := infix_flatMap kept (nodeConverter config method.ident.className)
  rw [nodeConverter, if_neg other] at written
  have behindBlank := (List.suffix_cons Step.blank _).isInfix.trans written
  have inFile := @converters_infix_fileSteps config package method
    (partsOf config method ids executed)
  refine (behindBlank.trans ?_).trans inFile
  rw [List.append_assoc]
  exact List.infix_append _ _ _

theorem initializesWith_fileSteps (collected : DataIds.collect method = .ok ids) {node : Node}
    (kept : node ∈ ids.parameters) :
    InitializesWith config method.ident.className node.ident (Setup.initialValue node)
      (fileSteps config package method (partsOf config method ids executed)) := by
  have initialized : Setup.constructor config method.ident.className ids <:+:
      fileSteps config package method (partsOf config method ids executed) :=
    constructor_infix_fileSteps (partsOf config method ids executed)
  have orderly := DataIds.orderly_of_collect collected
  have distinct := orderly.nodup_parameters
  obtain ⟨front, back, split⟩ := List.append_of_mem kept
  rw [split, List.map_append, List.map_cons] at distinct
  have apart := (List.nodup_middle.mp distinct).notMem
  rw [Setup.constructor, Setup.initializers, Setup.separated_eq, split, List.map_append,
    List.map_cons] at initialized
  refine ⟨_, _, _, _, apart, forall₂_idents ?_, forall₂_idents ?_, initialized⟩
  · exact fun n _ => ⟨Setup.initialValue n, rfl⟩
  · exact fun n _ => ⟨Setup.initialValue n, rfl⟩

/-- The values of an enum parameter other than the data flow are numbered in the same way by all
    that is written of it, if all arguments with its spelling are that parameter: the line at
    an index of the description registers the index, the converter takes it to the native
    enumerator of the description that has it, and a default that is the spelling of a
    description initialises the member with the least index of one. -/
theorem rendered_indices {text : String}
    (rendered : renderMethod config package method = .ok text)
    (member : .enumeration enumeration ∈ method.arguments)
    (other : enumeration.parameter.argument.ident ≠ dataFlow)
    (same : ∀ node ∈ method.arguments, node.ident = enumeration.parameter.argument.ident →
      node = .enumeration enumeration) :
    ∃ steps, text = Document.render config.indentWidth steps ∧
      NumbersValues config method enumeration Setup.NamesPlain steps := by
  obtain ⟨ids, executed, collected, -, laidOut⟩ := exists_partsOf rendered
  have kept : .enumeration enumeration ∈ ids.parameters :=
    DataIds.mem_parameters_of_sole collected member rfl same
  refine ⟨_, laidOut, ?_⟩
  constructor
  case description =>
    exact ⟨_, Setup.describes_parameterLines config other, hasDescription_fileSteps collected kept⟩
  case converter =>
    obtain ⟨code, converts, written⟩ := exists_converts config method.ident.className enumeration
    have inFile := @converter_infix_fileSteps config package method ids executed _ kept other
    rw [written] at inFile
    exact ⟨code, converts, inFile⟩
  case initial =>
    intro described
    obtain ⟨index, least, value⟩ := Setup.initialValue_of_defaultsTo described
    have inFile := @initializesWith_fileSteps config package method ids executed collected _ kept
    rw [value] at inFile
    exact ⟨index, least, inFile⟩

/-- An enum parameter with a name for its first value, whose default is the spelling of the
    other two. -/
def modeParameter (name : String) : EnumParameter :=
  let made := EnumParameter.make ⟨"mode"⟩ ""
  { parameter := { made.parameter with default := some "slow" }
    descriptions := [.make ⟨"fast"⟩ name none, .make ⟨"slow"⟩ "" (some "cv::LOW"),
      .make ⟨"slow"⟩ "Slowest" none] }

/-- The only option of a method, which has that parameter. -/
def modeOption (name : String) : MethodOption where
  ident := ⟨"manual"⟩
  items := [.node (.enumeration (modeParameter name))]

/-- The method with that option. -/
def modeMethod (name : String) : Method where
  ident := ⟨"blur"⟩
  options := [modeOption name]

/-- A package of that method. -/
def modePackage (name : String) : Package where
  ident := ⟨"vision"⟩
  version := ⟨1, 0, 0⟩
  methods := [modeMethod name]

/-- The default `slow` is the second value. -/
theorem modeMethod_indices :
    ∃ text, renderMethod .standard (modePackage "Fast") (modeMethod "Fast") = .ok text ∧
      .enumeration (modeParameter "Fast") ∈ (modeMethod "Fast").arguments ∧
      (modeParameter "Fast").parameter.argument.ident ≠ dataFlow ∧
      (∀ node ∈ (modeMethod "Fast").arguments, node.ident = ⟨"mode"⟩ →
        node = .enumeration (modeParameter "Fast")) ∧
      ∃ steps, text = Document.render Config.standard.indentWidth steps ∧
        NumbersValues .standard (modeMethod "Fast") (modeParameter "Fast") Setup.NamesPlain steps ∧
        InitializesWith .standard "Blur" ⟨"mode"⟩ "1" steps := by
  obtain ⟨text, rendered⟩ : ∃ text, renderMethod .standard (modePackage "Fast")
      (modeMethod "Fast") = .ok text := ⟨_, rfl⟩
  have member : .enumeration (modeParameter "Fast") ∈ (modeMethod "Fast").arguments := by decide
  have other : (modeParameter "Fast").parameter.argument.ident ≠ dataFlow := by decide
  have same : ∀ node ∈ (modeMethod "Fast").arguments, node.ident = ⟨"mode"⟩ →
      node = .enumeration (modeParameter "Fast") := by decide
  obtain ⟨steps, laidOut, numbers⟩ := rendered_indices rendered member other same
  have second : (modeParameter "Fast").DefaultsTo 1 := ⟨_, rfl, rfl⟩
  obtain ⟨index, least, initializes⟩ := numbers.initial ⟨1, second⟩
  have one : index = 1 := by
    have bounded := least.2 second
    have notFirst : index ≠ 0 := by
      rintro rfl
      obtain ⟨description, present, spelled⟩ := least.1
      cases present
      exact absurd spelled (by decide)
    omega
  subst one
  exact ⟨text, rendered, member, other, same, steps, laidOut, numbers, initializes⟩

/-- What a file has for the description of a parameter of its method stands in it. -/
theorem HasDescription.isInfix {description steps : List Step}
    (has : HasDescription config method enumeration description steps)
    (member : .enumeration enumeration ∈ method.arguments) : description <:+: steps := by
  by_cases early : enumeration.parameter.isInit = true
  · obtain ⟨entries, inEntries, listed⟩ := has.early early
    exact inEntries.trans listed.entries_infix
  · obtain ⟨entries, inEntries, listed⟩ := has.later (Bool.not_eq_true _ ▸ early)
    obtain ⟨option, inMethod, inOption⟩ := List.mem_flatMap.mp member
    exact (inEntries option inMethod inOption).trans (listed.infix_of_mem inMethod)

/-- A value need not be registered under its display name: another name is read from a literal
    in which a backslash stands. -/
theorem backslash_name_misread :
    ¬ ∀ (config : Config) (package : Package) (method : Method) (enumeration : EnumParameter)
      (text : String), renderMethod config package method = .ok text →
        .enumeration enumeration ∈ method.arguments →
        enumeration.parameter.argument.ident ≠ dataFlow →
        (∀ node ∈ method.arguments, node.ident = enumeration.parameter.argument.ident →
          node = .enumeration enumeration) →
        ∃ steps, text = Document.render config.indentWidth steps ∧
          NumbersValues config method enumeration Setup.Names steps := by
  intro numbers
  obtain ⟨text, rendered⟩ : ∃ text, renderMethod .standard (modePackage "a\\b")
      (modeMethod "a\\b") = .ok text := ⟨_, rfl⟩
  have member : .enumeration (modeParameter "a\\b") ∈ (modeMethod "a\\b").arguments := by decide
  obtain ⟨steps, laidOut, numbered⟩ :=
    numbers .standard _ _ (modeParameter "a\\b") text rendered member (by decide) (by decide)
  obtain ⟨_, ⟨adds, registers, rfl⟩, has⟩ := numbered.description
  obtain ⟨add, others, ⟨literal, names, rfl⟩, -, rfl⟩ := List.forall₂_cons_left_iff.mp registers
  -- The name is read only from the literal in which the backslash is escaped.
  have escaped : literal = "\"a\\\\b\"" :=
    String.toList_inj.mp (Setup.readLiteral?_eq_some_iff.mp names)
  have inFile := (has.isInfix member).subset
    (List.mem_append_left _ (List.mem_append_right _ List.mem_cons_self))
  have isWord : IsWord literal := escaped ▸ by decide
  have occurs : Occurs literal text := by
    rw [laidOut, occurs_render_iff isWord]
    exact ⟨_, inFile, .before (.behind _ List.infix_rfl) _⟩
  obtain ⟨parts, made, same⟩ := renderMethod_ok_iff.mp rendered
  rw [same, occurs_render_iff isWord, escaped] at occurs
  obtain ⟨line, inLines, inLine⟩ := occurs
  obtain rfl : _ = parts := Except.ok.inj made
  exact omits_of_bytes (by decide +kernel) line inLines inLine

end Emission
end OperatorGen
