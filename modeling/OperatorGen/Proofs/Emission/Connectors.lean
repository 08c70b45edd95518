import OperatorGen.Proofs.Emission.BodyText
import OperatorGen.Proofs.Emission.DescriptionText
import OperatorGen.Proofs.Emission.FunctionText

/-!
# Declared and executed connectors

An operator declares its inputs and outputs when it is set up, and it receives and sends
data when it is executed. The two are written separately, but both follow the arguments of an
option. So the lines of a file that receive data for an option are about the arguments that are
described as inputs for it, in the same order, and the lines that send data are about those
that are described as outputs, though they stand behind the call (`OptionConnects`).
-/
namespace OperatorGen

/-! ## Arguments that are received and sent -/

namespace Node

variable {node : Node} {argument : Argument}

theorem hasId_of_received (received : node.received? = some argument) :
    node.hasId = true ∧ node.ident = argument.ident := by
  cases node with
  | input _ _ | refInput _ _ => cases received; exact ⟨rfl, rfl⟩
  | _ => cases received

theorem hasId_of_sent (sent : node.sent? = some argument) :
    node.hasId = true ∧ node.ident = argument.ident := by
  cases node with
  | output _ | allocation _ | refInput _ _ => cases sent; exact ⟨rfl, rfl⟩
  | _ => cases sent

/-- An output is not received. -/
theorem filterMap_received_filter (nodes : List Node) :
    (nodes.filter fun node => !node.isOutput).filterMap received? = nodes.filterMap received? := by
  rw [List.filterMap_filter]
  refine List.filterMap_congr fun node _ => ?_
  cases node <;> rfl

/-- What is sent is an output of the operator. -/
theorem filterMap_sent_filter (nodes : List Node) :
    (nodes.filter (Setup.isOn .outputs)).filterMap sent? = nodes.filterMap sent? := by
  rw [List.filterMap_filter]
  refine List.filterMap_congr fun node _ => ?_
  cases node <;> rfl

end Node

namespace Body

variable {config : Config} {option : MethodOption} {nodes : List Node}
  {blocks : List (List PlacedLine)}

/-- The blocks that declare the variables of arguments receive data: a block of several lines
    begins with the line that receives the container of its argument, and any other block is the
    one line that declares a variable. -/
inductive Receives (config : Config) : List (List PlacedLine) → List Argument → Prop
  | nil : Receives config [] []
  | container {argument : Argument} {line : PlacedLine} {others : List PlacedLine}
      {blocks : List (List PlacedLine)} {arguments : List Argument}
      (rest : Receives config blocks arguments) :
    Receives config
      ((.plain (config.runtime "DataContainer" ++ " " ++ containerName argument.ident ++
          " = provider.receiveInputData(" ++ argument.ident.constant ++ ");") :: line :: others) ::
        blocks)
      (argument :: arguments)
  | variable {text : String} {blocks : List (List PlacedLine)} {arguments : List Argument}
      (rest : Receives config blocks arguments) :
    Receives config ([.plain text] :: blocks) arguments

/-- The line that sends the data of an argument, either the container that was received or a new
    one for the native data. -/
inductive Sends (config : Config) : List PlacedLine → Argument → Prop
  | wrapped {argument : Argument} :
    Sends config
      [.plain ("provider.sendOutputData(" ++ argument.ident.constant ++ ", " ++
        (config.runtime "DataContainer" ++ "(cvsupport::wrap(" ++
          config.dataName argument.ident ++ "))") ++ ");")]
      argument
  | container {argument : Argument} :
    Sends config
      [.plain ("provider.sendOutputData(" ++ argument.ident.constant ++ ", " ++
        containerName argument.ident ++ ");")]
      argument

theorem receives_of_declares (declares : List.Forall₂ (Declares config option) nodes blocks) :
    Receives config blocks (nodes.filterMap Node.received?) := by
  induction declares with
  | nil => exact .nil
  | cons head _ rest =>
    cases head with
    | input | refInput | guarded => exact .container rest
    | _ => exact .variable rest

theorem sends_of_handsBack (handsBack : List.Forall₂ (HandsBack config) nodes blocks) :
    List.Forall₂ (Sends config) blocks (nodes.filterMap Node.sent?) := by
  induction handsBack with
  | nil => exact .nil
  | cons head _ rest =>
    cases head with
    | output | allocation => exact .cons .wrapped rest
    | refInput => exact .cons .container rest

end Body

/-! ## Agreement -/

namespace Emission

/-- The connectors of an option in a file. What is executed for it declares variables, runs the
    fragments of the arguments around the call, and sends data at the end; in this some arguments
    are received and some are sent. The former are what the inputs of the option are described
    by, the latter what its outputs are described by, and all of them have ids. -/
structure OptionConnects (config : Config) (option : MethodOption) (enumerators : List String)
    (executed inputs outputs : List Step) (received sent : List Argument) : Prop where
  executed : ∃ (declarations sends : List (List PlacedLine)) (call : String),
    List.Forall₂ (Body.Declares config option)
        (option.arguments.filter fun node => !node.isOutput) declarations ∧
      Body.Receives config declarations received ∧
      List.Forall₂ (Body.Sends config) sends sent ∧
      Step.Lays executed
        (declarations.flatten ++
          ((option.arguments.filterMap Node.argument?).flatMap Argument.initIn).map
            PlacedLine.plain ++
          [PlacedLine.plain ""] ++ [PlacedLine.plain call] ++ [PlacedLine.plain ""] ++
          ((option.arguments.filterMap Node.argument?).flatMap Argument.initOut).map
            PlacedLine.plain ++
          sends.flatten)
  inputs : inputs = received.flatMap (Setup.connectorLines config "inputs")
  outputs : outputs = sent.flatMap (Setup.connectorLines config "outputs")
  enumerated : ∀ argument ∈ received ++ sent, argument.ident.constant ∈ enumerators

variable {config : Config} {method : Method} {ids : DataIds} {option : MethodOption}

/-- The ids of a method have enumerators for the arguments of its options. -/
theorem constant_mem_of_collect (collected : DataIds.collect method = .ok ids)
    (member : option ∈ method.options) {node : Node} (inOption : node ∈ option.arguments)
    (counts : node.hasId = true) : node.ident.constant ∈ ids.ids.map Ident.constant :=
  List.mem_map_of_mem (DataIds.mem_collect_of_declared collected
    (DataIds.mem_ids_declared.mpr ⟨option, member, node, inOption, counts, rfl⟩))

/-- The arguments that an option receives are described as inputs, and those that it sends as
    outputs. -/
theorem optionConnects_of_collect {body : List Body.Statement}
    (collected : DataIds.collect method = .ok ids) (member : option ∈ method.options)
    (made : Body.ofOption method.nativeFunction option = .ok body) :
    OptionConnects config option (ids.ids.map Ident.constant) (Body.code config body)
      (Setup.connectionSteps config .inputs option) (Setup.connectionSteps config .outputs option)
      (option.arguments.filterMap Node.received?) (option.arguments.filterMap Node.sent?) where
  executed := by
    obtain ⟨lines, isBody, lays⟩ := Body.lays_ofOption config made
    obtain ⟨declares, passes, assigns, handsBack⟩ := isBody
    have receives := Body.receives_of_declares declares
    have isSent := Body.sends_of_handsBack handsBack
    rw [Node.filterMap_received_filter] at receives
    rw [Node.filterMap_sent_filter] at isSent
    exact ⟨_, _, _, declares, receives, isSent, lays⟩
  inputs := Setup.connectionSteps_eq .inputs option
  outputs := Setup.connectionSteps_eq .outputs option
  enumerated := by
    intro argument either
    rw [List.mem_append, List.mem_filterMap, List.mem_filterMap] at either
    rcases either with ⟨node, inOption, received⟩ | ⟨node, inOption, sent⟩
    · obtain ⟨counts, same⟩ := Node.hasId_of_received received
      exact same ▸ constant_mem_of_collect collected member inOption counts
    · obtain ⟨counts, same⟩ := Node.hasId_of_sent sent
      exact same ▸ constant_mem_of_collect collected member inOption counts

/-! ## Files -/

/-- The file of a method has an enumeration of ids and three functions with a part for each
    option: what is executed, and the descriptions of the inputs and of the outputs. The parts of
    every option agree. -/
def FileConnects (config : Config) (method : Method) (text : String) : Prop :=
  ∃ (steps : List Step) (enumerators : List String)
    (executed inputs outputs : MethodOption → List Step),
    text = Document.render config.indentWidth steps ∧
      HasEnumeration "DataId" enumerators steps ∧
      ExecutesByOption config method executed steps ∧
      ListsByOption config method "setupInputs" "Description" "inputs" inputs steps ∧
      ListsByOption config method "setupOutputs" "Description" "outputs" outputs steps ∧
      ∀ option ∈ method.options, ∃ received sent : List Argument,
        OptionConnects config option enumerators (executed option) (inputs option)
          (outputs option) received sent

/-- In the file of a method that renders, the declared and the executed connectors of every
    option agree. -/
theorem renderMethod_connectors {package : Package} {text : String}
    (rendered : renderMethod config package method = .ok text) :
    FileConnects config method text := by
  obtain ⟨ids, body, collected, bodies, same⟩ := exists_bodies rendered
  exact ⟨_, _, _, _, _, same, hasEnumeration_fileSteps, executesByOption_fileSteps collected body,
    listsByOption_connectors collected .inputs, listsByOption_connectors collected .outputs,
    fun option member =>
      ⟨_, _, optionConnects_of_collect collected member (bodies option member)⟩⟩

/-- A method with a choice between a buffer to write to, which is handed back, and a buffer
    that is allocated. -/
def thresholdMethod : Method where
  ident := ⟨"threshold"⟩
  options := [
    { ident := ⟨"manual"⟩
      items := [.node (.input { ident := ⟨"src"⟩ } true),
        .node (.refInput { ident := ⟨"dst"⟩ } ⟨"src"⟩)] },
    { ident := ⟨"allocate"⟩
      items := [.node (.input { ident := ⟨"src"⟩ } false),
        .compound ⟨.size, [.allocation { ident := ⟨"dst"⟩ }, .constant ⟨⟨"h"⟩, "int", "3"⟩]⟩,
        .node (.output { ident := ⟨"level"⟩ })] }]

/-- The file of such a method is rendered. -/
theorem threshold_connectors :
    ∃ text, renderMethod .standard { ident := ⟨"vision"⟩, version := ⟨1, 0, 0⟩ }
        thresholdMethod = .ok text ∧
      FileConnects .standard thresholdMethod text := by
  obtain ⟨text, rendered⟩ : ∃ text, renderMethod .standard
      { ident := ⟨"vision"⟩, version := ⟨1, 0, 0⟩ } thresholdMethod = .ok text := ⟨_, rfl⟩
  exact ⟨text, rendered, renderMethod_connectors rendered⟩

end Emission
end OperatorGen
