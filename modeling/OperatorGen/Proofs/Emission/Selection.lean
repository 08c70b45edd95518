import OperatorGen.Proofs.Emission.FunctionText
import OperatorGen.Proofs.Ident
import OperatorGen.Validation

/-!
# Selection of options

Where a section of a file depends on the option, it is a switch on the data flow, or what is
made for the only option, without a switch. Which of them it is is decided by the collected
ids, in which an argument may stand for the data flow where there is no choice; so an
operator selects options if it has several of them, or if an argument is spelled like the
data flow (`SelectsOption`). All sections of a file agree on it (`rendered_selection`).
-/
namespace OperatorGen

/-! ## The line of the switch -/

namespace Setup

/-- Whether a step opens no switch on the data flow. -/
def NoSwitch (step : Step) : Prop :=
  step ≠ .line switchText

instance : DecidablePred NoSwitch := fun _ => inferInstanceAs (Decidable (_ ≠ _))

theorem noSwitch_blank : NoSwitch Step.blank := by decide

theorem noSwitch_of_suffix (front : String) {last : String}
    (other : ¬ last.toList <:+ switchText.toList) : NoSwitch (.line (front ++ last)) := by
  intro same
  have chars := congrArg String.toList (Step.line.inj same)
  rw [String.toList_append] at chars
  exact other ⟨front.toList, chars⟩

theorem noSwitch_of_prefix {first : String} (rest : String)
    (other : ¬ first.toList <+: switchText.toList) : NoSwitch (.line (first ++ rest)) := by
  intro same
  have chars := congrArg String.toList (Step.line.inj same)
  rw [String.toList_append] at chars
  exact other ⟨rest.toList, chars⟩

/-- A line that ends a statement opens no switch. -/
theorem noSwitch_statement (front : String) : NoSwitch (.line (front ++ ";")) :=
  noSwitch_of_suffix front (by decide)

theorem noSwitch_call (front : String) : NoSwitch (.line (front ++ ");")) :=
  noSwitch_of_suffix front (by decide)

/-! ## Descriptions -/

/-- A step of which code without blocks is made: an empty line, or one that ends a statement. -/
def EndsStatement (step : Step) : Prop :=
  step = Step.blank ∨ ∃ text, step = .line text ∧ text.toList.getLast? = some ';'

theorem EndsStatement.noSwitch {step : Step} (ends : EndsStatement step) : NoSwitch step := by
  rcases ends with rfl | ⟨text, rfl, last⟩
  · exact noSwitch_blank
  · intro same
    rw [Step.line.inj same] at last
    exact absurd last (by decide)

theorem endsStatement_line (front : String) {last : String}
    (ends : last.toList.getLast? = some ';') : EndsStatement (.line (front ++ last)) := by
  refine .inr ⟨_, rfl, ?_⟩
  rw [String.toList_append, List.getLast?_append, ends]
  rfl

theorem endsStatement_describeParameter {config : Config} {parameter : Parameter} {make : String}
    {details : List Step} (detailed : ∀ step ∈ details, EndsStatement step) :
    ∀ step ∈ describeParameter config parameter make details, EndsStatement step := by
  simp only [describeParameter, List.forall_mem_append, List.forall_mem_cons]
  refine ⟨⟨⟨endsStatement_line _ rfl, endsStatement_line _ rfl, endsStatement_line _ rfl, ?_⟩,
    detailed⟩, endsStatement_line _ rfl, .inl rfl, ?_⟩
  · exact List.forall_mem_nil _
  · exact List.forall_mem_nil _

theorem endsStatement_boundStep (holder type setter : String) (bound : Option String) :
    ∀ step ∈ boundStep holder type setter bound, EndsStatement step := by
  intro step member
  obtain ⟨value, -, rfl⟩ := List.mem_map.mp member
  exact endsStatement_line _ rfl

/-- The description of a parameter is one statement after another. -/
theorem endsStatement_describeNode (config : Config) (isInit : Bool) (node : Node) :
    ∀ step ∈ describeNode config isInit node, EndsStatement step := by
  unfold describeNode
  split
  · cases node with
    | parameter p => exact endsStatement_describeParameter (List.forall_mem_nil _)
    | numeric n =>
      refine endsStatement_describeParameter ?_
      rw [List.forall_mem_append, List.forall_mem_append]
      exact ⟨⟨endsStatement_boundStep _ _ _ _, endsStatement_boundStep _ _ _ _⟩,
        endsStatement_boundStep _ _ _ _⟩
    | enumeration e =>
      refine endsStatement_describeParameter ?_
      intro step member
      obtain ⟨index, bound, rfl⟩ := List.mem_mapIdx.mp member
      exact endsStatement_line _ rfl
    | _ => exact List.forall_mem_nil _
  · exact List.forall_mem_nil _

theorem endsStatement_laterDescriptions (config : Config) (option : MethodOption) :
    ∀ step ∈ laterDescriptions config option, EndsStatement step := by
  intro step member
  obtain ⟨node, -, inNode⟩ := List.mem_flatMap.mp member
  exact endsStatement_describeNode config false node step inNode

theorem endsStatement_connectionSteps (config : Config) (side : Side) (option : MethodOption) :
    ∀ step ∈ connectionSteps config side option, EndsStatement step := by
  intro step member
  obtain ⟨statement, -, rfl⟩ := List.mem_map.mp member
  cases statement with
  | blank => exact .inl rfl
  | _ => exact endsStatement_line _ rfl

end Setup

/-! ## Statements -/

namespace Body

open Setup

theorem noSwitch_guard (config : Config) (ident source : Ident) :
    ∀ step ∈ Statement.steps config (.guard ident source), NoSwitch step := by
  have condition : NoSwitch
      (.line ("if(" ++ containerName ident ++ " == " ++ containerName source ++ ")")) := by
    rw [String.append_assoc, String.append_assoc, String.append_assoc]
    exact noSwitch_of_prefix _ (by decide)
  have thrown (exception : String) :
      NoSwitch (.line (exception ++ ", *this, \"Can not operate in place.\");")) :=
    noSwitch_of_suffix exception (by decide)
  simp only [Statement.steps, Step.nested, List.forall_mem_append, List.forall_mem_singleton]
  exact ⟨condition, ⟨fun same => Step.noConfusion same, thrown _⟩, fun same => Step.noConfusion same⟩

/-- Of all statements, only a fragment can open a switch on the data flow. -/
theorem noSwitch_steps (config : Config) {statement : Statement}
    (template : ∀ text, statement ≠ .fragment text) :
    ∀ step ∈ statement.steps config, NoSwitch step := by
  cases statement with
  | fragment text => exact absurd rfl (template text)
  | guard ident source => exact noSwitch_guard config ident source
  | receive ident => exact List.forall_mem_singleton.mpr (noSwitch_call _)
  | openAccess access ident => exact List.forall_mem_singleton.mpr (noSwitch_call _)
  | declare nativeType ident initial => exact List.forall_mem_singleton.mpr (noSwitch_statement _)
  | allocate nativeType ident => exact List.forall_mem_singleton.mpr (noSwitch_statement _)
  | blank => exact List.forall_mem_singleton.mpr noSwitch_blank
  | call result function items =>
    refine List.forall_mem_singleton.mpr ?_
    rw [callExpression, ← String.append_assoc]
    exact noSwitch_call _
  | send ident handed => exact List.forall_mem_singleton.mpr (noSwitch_call _)

theorem switch_mem_code_iff (config : Config) (statements : List Statement) :
    .line switchText ∈ code config statements ↔ .fragment switchText ∈ statements := by
  rw [code, List.mem_flatMap]
  constructor
  · rintro ⟨statement, member, inSteps⟩
    by_cases template : ∀ text, statement ≠ .fragment text
    · exact absurd rfl (noSwitch_steps config template _ inSteps)
    · obtain ⟨text, same⟩ := not_forall_not.mp template
      rw [same, Statement.steps, List.mem_singleton] at inSteps
      rwa [Step.line.inj inSteps, ← same]
  · intro member
    exact ⟨_, member, List.mem_singleton_self _⟩

end Body

/-! ## Sections -/

namespace Setup

variable {ids : DataIds} {method : Method} {code : MethodOption → List Step}

/-- A section has the line of the switch if there is a data flow, or if the code of an option
    has it. -/
theorem switch_mem_forEachOption_iff
    (reached : ids.hasDataFlow = true ∨ method.options.length ≤ 1) :
    .line switchText ∈ forEachOption ids method code ↔
      ids.hasDataFlow = true ∨ ∃ option ∈ method.options, .line switchText ∈ code option := by
  by_cases flow : ids.hasDataFlow = true
  · have opened : .line switchText ∈ forEachOption ids method code := by
      rw [forEachOption, if_pos flow, dataFlowSwitch]
      exact List.mem_cons_self
    exact ⟨fun _ => .inl flow, fun _ => opened⟩
  · have single : method.options.length ≤ 1 := reached.resolve_left flow
    rw [forEachOption, if_neg flow, or_iff_right flow]
    rcases options : method.options with _ | ⟨option, _ | ⟨second, rest⟩⟩
    · simp
    · simp
    · simp [options] at single

theorem switch_mem_cons_iff {step : Step} {steps : List Step} (other : NoSwitch step) :
    .line switchText ∈ step :: steps ↔ .line switchText ∈ steps := by
  rw [List.mem_cons]
  exact or_iff_right other.symm

theorem switch_mem_concat_iff {step : Step} {steps : List Step} (other : NoSwitch step) :
    .line switchText ∈ steps ++ [step] ↔ .line switchText ∈ steps := by
  rw [List.mem_append, List.mem_singleton]
  exact or_iff_left other.symm

theorem switch_mem_scope_iff {steps : List Step} :
    .line switchText ∈ Step.scope steps ↔ .line switchText ∈ steps := by
  have opening : NoSwitch (.line "\x7b") := by decide
  have closing : NoSwitch (.line "\x7d") := by decide
  have deeper : NoSwitch .indent := by decide
  have back : NoSwitch .dedent := by decide
  rw [Step.scope, switch_mem_concat_iff closing, List.singleton_append,
    switch_mem_cons_iff opening, Step.nested, switch_mem_concat_iff back, List.singleton_append,
    switch_mem_cons_iff deeper]

theorem switch_mem_listFunction_iff {config : Config} {className function element list : String}
    {body : List Step} :
    .line switchText ∈ listFunction config className function element list body ↔
      .line switchText ∈ body := by
  have header (front : String) : NoSwitch (.line (front ++ "()")) :=
    noSwitch_of_suffix front (by decide)
  rw [listFunction, List.singleton_append, switch_mem_cons_iff (header _), switch_mem_scope_iff,
    switch_mem_concat_iff (noSwitch_statement _), List.cons_append,
    switch_mem_cons_iff (noSwitch_statement _), List.singleton_append,
    switch_mem_cons_iff noSwitch_blank]

/-- In a function that returns a list, the line of the switch is that of a section. -/
theorem switch_mem_described_iff {config : Config} {className function element list : String}
    {descriptions : List Step} :
    .line switchText ∈ listFunction config className function element list
        (descriptions ++ afterSwitch ids) ↔
      .line switchText ∈ descriptions := by
  rw [switch_mem_listFunction_iff, afterSwitch]
  split
  · exact switch_mem_concat_iff noSwitch_blank
  · rw [List.append_nil]

end Setup

namespace Emission

theorem switch_mem_execute_iff {config : Config} {className : String} {body : List Step} :
    .line Setup.switchText ∈ execute config className body ↔ .line Setup.switchText ∈ body := by
  have header (front : String) : Setup.NoSwitch (.line (front ++ " & provider)")) :=
    Setup.noSwitch_of_suffix front (by decide)
  rw [execute, List.singleton_append, Setup.switch_mem_cons_iff (header _),
    Setup.switch_mem_scope_iff]

/-- No enumerator is spelled like the line that opens the enumeration of the options, as there
    are no lower case letters in it. -/
theorem dataFlowId_not_mem_enumeration (idents : List Ident) :
    .line "enum DataFlowId" ∉ enumeration "DataId" (idents.map Ident.constant) := by
  have apart : ∀ (ident : Ident) (rest : String), 'e' ∉ rest.toList →
      ident.constant ++ rest ≠ "enum DataFlowId" := by
    intro ident rest without same
    have letter : 'e' ∈ (ident.constant ++ rest).toList := by
      rw [same]
      decide
    rw [String.toList_append, List.mem_append] at letter
    exact Ident.not_lower_of_mem_constant (letter.resolve_right without) (by decide)
  have entries : "enum DataFlowId" ∉ Setup.separated (idents.map Ident.constant) := by
    intro member
    rw [Setup.separated_eq] at member
    obtain ⟨index, bound, same⟩ := List.mem_mapIdx.mp member
    rw [List.getElem_map] at same
    split at same
    · exact apart _ "," (by decide) same
    · exact apart _ "" (by decide) (String.append_empty.trans same)
  simpa [enumeration, Step.nested] using entries

theorem dataFlowId_mem_iff {ids : DataIds} {method : Method} :
    .line "enum DataFlowId" ∈ idEnumerations ids method ↔ ids.hasDataFlow = true := by
  rw [idEnumerations, List.mem_append, or_iff_right (dataFlowId_not_mem_enumeration ids.ids)]
  constructor
  · intro member
    by_contra none
    rw [if_neg none] at member
    cases member
  · intro flow
    rw [if_pos flow, enumeration]
    simp

/-- The sections of a file that depend on the option: the enumeration of the options is there
    exactly if there is a choice, and every function that looks at the options opens a switch on
    the data flow exactly if there is a choice, apart from fragments of the definition that are
    run. -/
structure Switches (config : Config) (method : Method) (ids : DataIds)
    (body : MethodOption → List Body.Statement) (choice : Prop) (steps : List Step) : Prop where
  enumerations : idEnumerations ids method <:+: steps ∧
    (.line "enum DataFlowId" ∈ idEnumerations ids method ↔ choice)
  parameters : ∃ code, Setup.Selects choice method (Setup.laterDescriptions config) code ∧
    Setup.parameters config method.ident.className ids code <:+: steps ∧
    (.line Setup.switchText ∈ Setup.parameters config method.ident.className ids code ↔ choice)
  connectors : ∀ side, ∃ code,
    Setup.Selects choice method (Setup.connectionSteps config side) code ∧
    Setup.connectors config method.ident.className ids side code <:+: steps ∧
    (.line Setup.switchText ∈ Setup.connectors config method.ident.className ids side code ↔
      choice)
  executed : ∃ code,
    Setup.Selects choice method (fun option => Body.code config (body option)) code ∧
    execute config method.ident.className code <:+: steps ∧
    (.line Setup.switchText ∈ execute config method.ident.className code ↔
      choice ∨ ∃ option ∈ method.options, .fragment Setup.switchText ∈ body option)

variable {config : Config} {package : Package} {method : Method} {ids : DataIds}
  {body : MethodOption → List Body.Statement}

theorem switches_fileSteps (collected : DataIds.collect method = .ok ids) :
    Switches config method ids body (SelectsOption method)
      (fileSteps config package method (partsWith config method ids body)) := by
  have decides := DataIds.hasDataFlow_iff collected
  have reached := DataIds.hasDataFlow_or_single collected
  have described : ∀ code : MethodOption → List Step,
      (∀ option, ∀ step ∈ code option, Setup.NoSwitch step) →
        (.line Setup.switchText ∈ Setup.forEachOption ids method code ↔ SelectsOption method) := by
    intro code inline
    rw [Setup.switch_mem_forEachOption_iff reached, decides]
    refine or_iff_left ?_
    rintro ⟨option, -, member⟩
    exact inline option _ member rfl
  constructor
  · have enumerated := @idEnumerations_infix_fileSteps config package method
      (partsWith config method ids body)
    exact ⟨enumerated, dataFlowId_mem_iff.trans decides⟩
  · refine ⟨_, Setup.selects_forEachOption decides,
      parameters_infix_fileSteps (partsWith config method ids body), ?_⟩
    rw [Setup.parameters, Setup.switch_mem_described_iff]
    exact described _ fun option step member =>
      (Setup.endsStatement_laterDescriptions config option step member).noSwitch
  · intro side
    have inFile : Setup.connectors config method.ident.className ids side
          (Setup.forEachOption ids method (Setup.connectionSteps config side)) <:+:
        fileSteps config package method (partsWith config method ids body) := by
      cases side with
      | inputs => exact inputs_infix_fileSteps (partsWith config method ids body)
      | outputs => exact outputs_infix_fileSteps (partsWith config method ids body)
    refine ⟨_, Setup.selects_forEachOption decides, inFile, ?_⟩
    rw [Setup.connectors, Setup.switch_mem_described_iff]
    exact described _ fun option step member =>
      (Setup.endsStatement_connectionSteps config side option step member).noSwitch
  · have inFile := @execute_infix_fileSteps config package method (partsWith config method ids body)
    refine ⟨_, Setup.selects_forEachOption decides, inFile, ?_⟩
    rw [switch_mem_execute_iff, Setup.switch_mem_forEachOption_iff reached, decides]
    simp only [Body.switch_mem_code_iff]

/-- The file of a method opens switches on the data flow, and enumerates the options, exactly if
    there is a choice. -/
def FileSwitches (config : Config) (method : Method) (text : String) (choice : Prop) : Prop :=
  ∃ (ids : DataIds) (body : MethodOption → List Body.Statement) (steps : List Step),
    DataIds.collect method = .ok ids ∧
      (∀ option ∈ method.options,
        Body.ofOption method.nativeFunction option = .ok (body option)) ∧
      text = Document.render config.indentWidth steps ∧
      Switches config method ids body choice steps

/-- The file of a method switches on the data flow exactly if the method selects options: if it
    has several of them, or if one of its arguments is spelled like the data flow. -/
theorem rendered_selection {text : String}
    (rendered : renderMethod config package method = .ok text) :
    FileSwitches config method text (SelectsOption method) := by
  obtain ⟨ids, body, collected, bodies, same⟩ := exists_bodies rendered
  exact ⟨ids, body, _, collected, bodies, same, switches_fileSteps collected⟩

/-- A method with one option, which has one input. -/
def soleMethod (input : Ident) : Method where
  ident := ⟨"blur"⟩
  options := [
    { ident := ⟨"manual"⟩
      items := [.node (.input { ident := input, wrapperType := "Image" } false)] }]

/-- The package of such a method. -/
def solePackage (input : Ident) : Package where
  ident := ⟨"vision"⟩
  version := ⟨1, 0, 0⟩
  methods := [soleMethod input]

/-- With an input `src` the code of the only option stands in line. -/
theorem sole_selection :
    ∃ text, renderMethod .standard (solePackage ⟨"src"⟩) (soleMethod ⟨"src"⟩) = .ok text ∧
      FileSwitches .standard (soleMethod ⟨"src"⟩) text (SelectsOption (soleMethod ⟨"src"⟩)) ∧
      ¬ SelectsOption (soleMethod ⟨"src"⟩) := by
  obtain ⟨text, rendered⟩ : ∃ text, renderMethod .standard (solePackage ⟨"src"⟩)
      (soleMethod ⟨"src"⟩) = .ok text := ⟨_, rfl⟩
  exact ⟨text, rendered, rendered_selection rendered, by decide⟩

/-- A file may have a switch without a choice of options: in a valid package the only option may
    have an input that is spelled like the data flow. -/
theorem sole_switch_accepted :
    ¬ ∀ (config : Config) (package : Package) (method : Method) (text : String),
      Validation.problems package = [] → method ∈ package.methods →
        renderMethod config package method = .ok text →
          FileSwitches config method text (1 < method.options.length) := by
  intro switches
  have valid : Validation.problems (solePackage dataFlow) = [] := by decide
  obtain ⟨text, rendered⟩ : ∃ text, renderMethod .standard (solePackage dataFlow)
      (soleMethod dataFlow) = .ok text := ⟨_, rfl⟩
  obtain ⟨ids, body, steps, collected, -, -, switched⟩ :=
    switches .standard _ _ text valid (by simp [solePackage]) rendered
  obtain rfl : _ = ids := Except.ok.inj collected
  have several : 1 < (soleMethod dataFlow).options.length :=
    switched.enumerations.2.mp (dataFlowId_mem_iff.mpr (by decide))
  exact absurd several (by decide)

end Emission
end OperatorGen
