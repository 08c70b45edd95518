import OperatorGen.Proofs.Emission.BodyText
import OperatorGen.Proofs.Emission.DescriptionText
import OperatorGen.Proofs.Emission.Selection
import OperatorGen.Proofs.Emission.Uniqueness
import OperatorGen.Proofs.Levels

/-!
# Sections on the data flow

With a choice of options a file names every option six times: in the enumeration of the
options, among the values of the data-flow parameter, and in the switches of the functions
that describe the parameters, the inputs and the outputs and that execute the operator. All
of them follow the options in order and spell each by its enumerator, and every switch holds
for an option what its function emits for it (`rendered_dataFlow`). A switch is read from
the lines of the function and their levels, so that nothing else in it can pass for a case.
-/
namespace OperatorGen

/-- The enumerators of the options in order. -/
def Method.optionEnumerators (method : Method) : List String :=
  method.options.map fun option => option.ident.constant

/-! ## Levels of what is emitted for an option -/

namespace Setup

theorem leveled_of_statements {steps : List Step} (ends : ∀ step ∈ steps, EndsStatement step) :
    Leveled steps := by
  refine .of_lines fun step member => ?_
  rcases ends step member with rfl | ⟨text, rfl, -⟩
  · rfl
  · rfl

theorem leveled_laterDescriptions (config : Config) (option : MethodOption) :
    Leveled (laterDescriptions config option) :=
  leveled_of_statements (endsStatement_laterDescriptions config option)

theorem leveled_connectionSteps (config : Config) (side : Side) (option : MethodOption) :
    Leveled (connectionSteps config side option) :=
  leveled_of_statements (endsStatement_connectionSteps config side option)

end Setup

/-- Of all statements, only a guard opens a level, and it closes it again. -/
theorem Body.leveled_code (config : Config) (statements : List Body.Statement) :
    Leveled (Body.code config statements) := by
  refine .flatMap fun statement _ => ?_
  cases statement with
  | guard ident source => exact .line _ (.nested (.line _ .nil))
  | _ => exact .line _ .nil

/-! ## Switches -/

namespace Setup

/-- Whether a line opens a case of an option. -/
def OpensCase (heading : Heading) : Prop :=
  "case(".toList <+: heading.text.toList

instance : DecidablePred OpensCase := fun _ => inferInstanceAs (Decidable (_ <+: _))

/-- A line that begins like no case opens none. -/
theorem not_opensCase {first : String} (rest : String) {behind : List Step}
    (other : first.toList.head?.any (· ≠ 'c') = true) : ¬ OpensCase ⟨first ++ rest, behind⟩ := by
  rintro ⟨tail, same⟩
  have begins : first.toList.head?.or rest.toList.head? = some 'c' := by
    rw [← List.head?_append, ← String.toList_append, ← same]
    rfl
  cases head : first.toList.head? with
  | none => simp [head] at other
  | some c =>
    rw [head, Option.some_or, Option.some.injEq] at begins
    simp [head, begins] at other

/-- The case of an option as it is read: behind its label the code for the option, in braces
    and up to the break. -/
def caseHeading (code : MethodOption → List Step) (option : MethodOption) : Heading :=
  ⟨"case(" ++ option.ident.constant ++ "):",
    Step.nested (Step.scope (code option) ++ [.line "break;"])⟩

/-- Among the lines of the level of a function there is a switch on the data flow with a case
    for each option in order, and there is no case outside of it. -/
def Dispatches (options : List MethodOption) (code : MethodOption → List Step)
    (steps : List Step) : Prop :=
  ∃ before behind,
    Step.headings steps =
      before ++ [Step.bare switchText, Step.bare "\x7b"] ++ options.map (caseHeading code) ++
        Step.bare "\x7d" :: behind ∧
    ∀ heading ∈ before ++ behind, ¬ OpensCase heading

section

variable {ids : DataIds} {code : MethodOption → List Step}
  (leveled : ∀ option, Leveled (code option))
include leveled

/-- A switch is read as its line, and its cases between braces. -/
theorem headings_dataFlowSwitch (options : List MethodOption) {rest : List Step}
    (begins : Step.BeginsLine rest) :
    Step.headings (dataFlowSwitch (options.flatMap fun option => optionCase option (code option)) ++
        rest) =
      [Step.bare switchText, Step.bare "\x7b"] ++ options.map (caseHeading code) ++
        Step.bare "\x7d" :: Step.headings rest := by
  have inner (option : MethodOption) : Leveled (Step.scope (code option) ++ [.line "break;"]) :=
    (leveled option).scope.append (.line _ .nil)
  rw [dataFlowSwitch, List.append_assoc, ← Step.headings_line "\x7d" begins]
  exact Step.headings_switch options _ inner (Step.beginsLine_line "\x7d" rest) switchText

/-- A function that is nothing but a switch. -/
theorem dispatches_forEachOption (method : Method) (flow : ids.hasDataFlow = true) :
    Dispatches method.options code (forEachOption ids method code) := by
  refine ⟨[], [], ?_, List.forall_mem_nil _⟩
  have switch := headings_dataFlowSwitch leveled method.options Step.beginsLine_nil
  rw [List.append_nil] at switch
  rw [forEachOption, if_pos flow, switch]
  rfl

/-- A function that has a switch between the declaration of a list and the return of it. -/
theorem dispatches_listed (method : Method) (flow : ids.hasDataFlow = true)
    {declaration result : String} (declares : ¬ OpensCase (Step.bare declaration))
    (returns : ¬ OpensCase (Step.bare result)) :
    Dispatches method.options code
      ([.line declaration, Step.blank] ++ (forEachOption ids method code ++ afterSwitch ids) ++
        [.line result]) := by
  have blank : ¬ OpensCase (Step.bare "") := by decide
  refine ⟨[Step.bare declaration, Step.bare ""], [Step.bare "", Step.bare result], ?_, ?_⟩
  · have switch := headings_dataFlowSwitch leveled method.options
      (Step.beginsLine_line "" [.line result])
    rw [forEachOption, if_pos flow, afterSwitch, if_pos flow, List.append_assoc, List.append_assoc]
    refine (Step.headings_line declaration (Step.beginsLine_line _ _)).trans ?_
    refine (congrArg _ (Step.headings_line "" (Step.beginsLine_line _ _))).trans ?_
    refine (congrArg _ (congrArg _ switch)).trans ?_
    simp only [List.append_assoc]
    rfl
  · simp only [List.forall_mem_append, List.forall_mem_cons]
    exact ⟨⟨declares, blank, List.forall_mem_nil _⟩, blank, returns, List.forall_mem_nil _⟩

end

/-! ## Values of the data flow -/

/-- A line that adds the enumerator of an option to the values of the data-flow parameter. -/
def AddsValue (config : Config) (option : MethodOption) (step : Step) : Prop :=
  ∃ title, step = .line (dataFlow.member ++ "Parameter" ++ "->add(" ++
    config.runtime "EnumDescription" ++ "(" ++ config.runtime "Enum" ++ "(" ++
    option.ident.constant ++ "), " ++ title ++ "));")

/-- The description of the data-flow parameter, given the lines that add its values. -/
def dataFlowLines (config : Config) (options : List MethodOption) (values : List Step) :
    List Step :=
  descriptionLines config (DataIds.dataFlowParameter options).parameter
    (config.runtime "EnumParameter" ++ "(" ++ dataFlow.constant ++ ")") values

/-- Every option has a value in the description, which is its enumerator and not its index. -/
theorem parameterLines_dataFlow (config : Config) (options : List MethodOption) :
    ∃ values, List.Forall₂ (AddsValue config) options values ∧
      parameterLines config (.enumeration (DataIds.dataFlowParameter options)) =
        dataFlowLines config options values := by
  let describe (option : MethodOption) : EnumDescription :=
    EnumDescription.make option.ident option.name (some option.ident.constant)
  let value (option : MethodOption) : Step :=
    addLine config (DataIds.dataFlowParameter options).parameter option.ident.constant
      (nameLiteral (describe option))
  have values : ((options.map describe).mapIdx fun index description =>
      addLine config (DataIds.dataFlowParameter options).parameter
        (if dataFlow = dataFlow then description.ident.constant else toString index)
        (nameLiteral description)) =
      options.map value := by
    refine List.ext_getElem (by simp) fun index _ _ => ?_
    simp [value, describe, EnumDescription.make]
  refine ⟨options.map value, ?_, ?_⟩
  · rw [List.forall₂_map_right_iff, List.forall₂_same]
    exact fun option _ => ⟨nameLiteral (describe option), rfl⟩
  · rw [← values]
    rfl

/-- Of the parameters that are set before the initialization the data flow comes last, and it is
    the only one with its spelling. -/
theorem initDescriptions_eq (config : Config) {method : Method} {ids : DataIds}
    (choice : 1 < method.options.length) (collected : DataIds.collect method = .ok ids) :
    ∃ (others : List Node) (values : List Step), (∀ node ∈ others, node.ident ≠ dataFlow) ∧
      List.Forall₂ (AddsValue config) method.options values ∧
      initDescriptions config ids = others.flatMap (parameterLines config) ++
        dataFlowLines config method.options values := by
  obtain ⟨values, added, described⟩ := parameterLines_dataFlow config method.options
  rcases DataIds.collect_cases collected with ⟨few, -⟩ | ⟨-, free, rfl⟩
  · exact absurd choice (Nat.not_lt_of_le few)
  · refine ⟨(DataIds.declared method).parameters.filter (Node.isDescribed true), values, ?_, added,
      ?_⟩
    · intro node kept spelled
      have known := (DataIds.orderly_declared method).parameters.subset
        (List.mem_map_of_mem (List.mem_filter.mp kept).1)
      exact free (spelled ▸ known)
    · have last : ([.enumeration (DataIds.dataFlowParameter method.options)] : List Node).filter
          (Node.isDescribed true) = [.enumeration (DataIds.dataFlowParameter method.options)] := rfl
      rw [DataIds.add_new rfl free, initDescriptions, flatMap_describeNode]
      simp only [Node.isParameter, Node.parameter?, Option.isSome_some, if_true,
        List.filter_append, last, List.flatMap_append, List.flatMap_singleton, described]

end Setup

/-! ## Files -/

namespace Emission

/-- Every function of a file that depends on the option is as it should be for the code that is
    emitted for an option: the functions that describe the parameters, the inputs and the
    outputs, and the one that executes the operator. -/
structure EachFunction (config : Config) (method : Method)
    (body : MethodOption → List Body.Statement)
    (holds : (MethodOption → List Step) → List Step → Prop) (steps : List Step) : Prop where
  parameters : ∃ code,
    HasFunction (listSignature config method.ident.className "setupParameters" "Parameter")
      code steps ∧
    holds (fun option =>
      (option.arguments.filter (Node.isDescribed false)).flatMap (Setup.parameterLines config)) code
  inputs : ∃ code,
    HasFunction (listSignature config method.ident.className "setupInputs" "Description")
      code steps ∧
    holds (fun option => (option.arguments.filterMap Node.received?).flatMap
      (Setup.connectorLines config "inputs")) code
  outputs : ∃ code,
    HasFunction (listSignature config method.ident.className "setupOutputs" "Description")
      code steps ∧
    holds (fun option => (option.arguments.filterMap Node.sent?).flatMap
      (Setup.connectorLines config "outputs")) code
  executed : ∃ code,
    HasFunction ("void " ++ method.ident.className ++ "::execute(" ++
      config.runtime "DataProvider" ++ " & provider)") code steps ∧
    holds (fun option => Body.code config (body option)) code

/-- The options of a method in the steps of its file: they are enumerated, each is a value of
    the data-flow parameter, and every function that depends on the option dispatches on them,
    always in order and by their enumerators. -/
structure NamesOptions (config : Config) (method : Method)
    (body : MethodOption → List Body.Statement) (steps : List Step) : Prop where
  enumeration : HasEnumeration "DataFlowId" method.optionEnumerators steps
  values : ∃ (others : List Node) (values : List Step), (∀ node ∈ others, node.ident ≠ dataFlow) ∧
    List.Forall₂ (Setup.AddsValue config) method.options values ∧
    ListsAll config method.ident.className "setupInitParameters" "Parameter" "parameters"
      (others.flatMap (Setup.parameterLines config) ++
        Setup.dataFlowLines config method.options values) steps
  functions : EachFunction config method body (Setup.Dispatches method.options) steps

variable {config : Config} {package : Package} {method : Method} {ids : DataIds}
  {body : MethodOption → List Body.Statement}

/-- With a data flow the options are enumerated behind the ids. -/
theorem hasEnumeration_options {parts : Parts} (flow : parts.ids.hasDataFlow = true) :
    HasEnumeration "DataFlowId" method.optionEnumerators
      (fileSteps config package method parts) := by
  have enumerated : enumeration "DataFlowId" method.optionEnumerators <:+:
      idEnumerations parts.ids method := by
    rw [idEnumerations, if_pos flow, ← List.append_assoc]
    exact (List.suffix_append _ _).isInfix
  rw [enumeration, Setup.separated_eq] at enumerated
  exact enumerated.trans idEnumerations_infix_fileSteps

theorem dispatches_fileSteps (collected : DataIds.collect method = .ok ids)
    (choice : 1 < method.options.length) :
    EachFunction config method body (Setup.Dispatches method.options)
      (fileSteps config package method (partsWith config method ids body)) := by
  have flow : ids.hasDataFlow = true := (DataIds.hasDataFlow_iff collected).mpr (.inl choice)
  -- Neither the declaration of a list nor its return opens a case.
  have declares (element list : String) : ¬ Setup.OpensCase (Step.bare
      ("std::vector<const " ++ config.runtime element ++ "*>" ++ " " ++ list ++ ";")) := by
    simp only [String.append_assoc]
    exact Setup.not_opensCase _ rfl
  have returns (list : String) : ¬ Setup.OpensCase (Step.bare ("return " ++ list ++ ";")) := by
    rw [String.append_assoc]
    exact Setup.not_opensCase _ rfl
  have later : Setup.laterDescriptions config = fun option =>
      (option.arguments.filter (Node.isDescribed false)).flatMap (Setup.parameterLines config) :=
    funext Setup.laterDescriptions_eq
  have inputs : Setup.connectionSteps config .inputs = fun option =>
      (option.arguments.filterMap Node.received?).flatMap (Setup.connectorLines config "inputs") :=
    funext (Setup.connectionSteps_eq .inputs)
  have outputs : Setup.connectionSteps config .outputs = fun option =>
      (option.arguments.filterMap Node.sent?).flatMap (Setup.connectorLines config "outputs") :=
    funext (Setup.connectionSteps_eq .outputs)
  have listed (side : Setup.Side) :=
    Setup.dispatches_listed (Setup.leveled_connectionSteps config side) method flow
      (declares "Description" side.list) (returns side.list)
  constructor
  case parameters =>
    rw [← later]
    exact ⟨_, parameters_infix_fileSteps (partsWith config method ids body), Setup.dispatches_listed
      (Setup.leveled_laterDescriptions config) method flow (declares _ _) (returns _)⟩
  case inputs =>
    rw [← inputs]
    exact ⟨_, inputs_infix_fileSteps (partsWith config method ids body), listed .inputs⟩
  case outputs =>
    rw [← outputs]
    exact ⟨_, outputs_infix_fileSteps (partsWith config method ids body), listed .outputs⟩
  case executed =>
    have inFile := @execute_infix_fileSteps config package method (partsWith config method ids body)
    exact ⟨_, inFile, Setup.dispatches_forEachOption
      (fun option => Body.leveled_code config (body option)) method flow⟩

theorem namesOptions_fileSteps (collected : DataIds.collect method = .ok ids)
    (choice : 1 < method.options.length) :
    NamesOptions config method body
      (fileSteps config package method (partsWith config method ids body)) := by
  have flow : ids.hasDataFlow = true := (DataIds.hasDataFlow_iff collected).mpr (.inl choice)
  have described : ListsAll config method.ident.className "setupInitParameters" "Parameter"
      "parameters" (Setup.initDescriptions config ids)
      (fileSteps config package method (partsWith config method ids body)) := listsAll_fileSteps
  obtain ⟨others, values, apart, added, same⟩ := Setup.initDescriptions_eq config choice collected
  rw [same] at described
  exact
    { enumeration := hasEnumeration_options flow
      values := ⟨others, values, apart, added, described⟩
      functions := dispatches_fileSteps collected choice }

/-- A file with a choice of options names them all in order and by their enumerators, wherever
    it depends on the option, and a case of an option holds what is emitted for that option. What
    an option executes are the lines of its body. -/
theorem rendered_dataFlow {text : String} (choice : 1 < method.options.length)
    (rendered : renderMethod config package method = .ok text) :
    ∃ (body : MethodOption → List Body.Statement) (steps : List Step),
      (∀ option ∈ method.options,
        Body.ofOption method.nativeFunction option = .ok (body option) ∧
          ∃ lines, Body.BodyLines config method.nativeFunction option lines ∧
            Step.Lays (Body.code config (body option)) lines) ∧
      text = Document.render config.indentWidth steps ∧ NamesOptions config method body steps := by
  obtain ⟨ids, body, collected, bodies, same⟩ := exists_bodies rendered
  refine ⟨body, _, fun option member => ?_, same, namesOptions_fileSteps collected choice⟩
  exact ⟨bodies option member, Body.lays_ofOption config (bodies option member)⟩

/-- The options `manual` and `allocate` are named by `MANUAL` and `ALLOCATE`. -/
theorem choiceMethod_dataFlow :
    ∃ text,
      renderMethod .standard (parameterPackage ⟨"ksize"⟩) (choiceMethod ⟨"ksize"⟩) = .ok text ∧
      ∃ (body : MethodOption → List Body.Statement) (steps : List Step),
        text = Document.render Config.standard.indentWidth steps ∧
        NamesOptions .standard (choiceMethod ⟨"ksize"⟩) body steps ∧
        [.line "enum DataFlowId", .line "\x7b"] ++
          Step.nested [.line "MANUAL,", .line "ALLOCATE"] ++ [.line "\x7d;"] <:+: steps := by
  obtain ⟨text, rendered⟩ : ∃ text, renderMethod .standard (parameterPackage ⟨"ksize"⟩)
      (choiceMethod ⟨"ksize"⟩) = .ok text := ⟨_, rfl⟩
  have choice : 1 < (choiceMethod ⟨"ksize"⟩).options.length := by decide
  have labels : Setup.commaSeparated (choiceMethod ⟨"ksize"⟩).optionEnumerators =
      ["MANUAL,", "ALLOCATE"] := by decide
  obtain ⟨body, steps, -, same, names⟩ := rendered_dataFlow choice rendered
  have enumerated := names.enumeration
  rw [HasEnumeration, labels] at enumerated
  exact ⟨text, rendered, body, steps, same, names, enumerated⟩

end Emission
end OperatorGen
