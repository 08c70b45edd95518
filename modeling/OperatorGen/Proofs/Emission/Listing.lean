import Mathlib.Data.List.Forall2
import OperatorGen.Proofs.Emission.FunctionText

/-!
# Lists of ids in a file

The ids of a method are enumerated in its file, and its parameters are gone through three
times: the constructor initialises a member for each, and the functions that get and set a
parameter have a case for each. All of them follow the collected ids (`Lists`), so they list
the same spellings in the same order (`collected_listing`).
-/
namespace OperatorGen

namespace Setup

/-- A line of the constructor that initialises the member of a parameter. -/
def Initializes (ident : Ident) (line : String) : Prop :=
  ∃ value, line = "    " ++ ident.member ++ "(" ++ value ++ ")"

end Setup

namespace Access

/-- The case that returns the member of a parameter for its id. -/
def Gets (ident : Ident) (steps : List Step) : Prop :=
  steps = [Step.line ("case " ++ ident.constant ++ ":")] ++
    Step.nested [Step.line ("return " ++ ident.member ++ ";")]

/-- The case that assigns the member of a parameter for its id, behind some checks. -/
def Sets (ident : Ident) (steps : List Step) : Prop :=
  ∃ checks, steps = [Step.line ("case " ++ ident.constant ++ ":")] ++
    Step.nested
      (Step.scope (checks ++ [Step.line (ident.member ++ " = castedValue;")]) ++
        [Step.line "break;"])

theorem sets_setNodeCase (config : Config) {node : Node} (parameter : node.isParameter = true) :
    Sets node.ident (setNodeCase config node) := by
  cases node with
  | parameter p => exact ⟨_, rfl⟩
  | numeric n => exact ⟨_, rfl⟩
  | enumeration e => exact ⟨_, rfl⟩
  | _ => cases parameter

end Access

namespace Emission

/-- Steps of a file list enumerators and parameters: the enumerators stand in the enumeration
    of the ids, and the parameters are initialised, got and set, all of them in order. Every
    enumerator and every initialiser but the last has a comma. -/
structure Lists (config : Config) (className : String) (enumerators : List String)
    (parameters : List Ident) (steps : List Step) : Prop where
  enumeration : HasEnumeration "DataId" enumerators steps
  constructor : ∃ members, List.Forall₂ Setup.Initializes parameters members ∧
    [.line (className ++ "::" ++ className ++ "()")] ++
      (Setup.commaSeparated
        (("  : " ++ config.runtime "OperatorKernel" ++
          "(TYPE, PACKAGE, VERSION, setupInitParameters())") :: members)).map .line ++
      Step.scope [] <:+: steps
  getter : ∃ cases, List.Forall₂ Access.Gets parameters cases ∧
    HasGetter config className cases steps
  setter : ∃ cases, List.Forall₂ Access.Sets parameters cases ∧
    HasSetter config className cases steps

variable {config : Config} {package : Package} {method : Method} {ids : DataIds}
  {executed : List Step}

/-- A relation between the spellings of nodes and what is made of the nodes. -/
theorem forall₂_idents {β : Type} {related : Ident → β → Prop} {make : Node → β}
    {nodes : List Node} (each : ∀ node ∈ nodes, related node.ident (make node)) :
    List.Forall₂ related (nodes.map Node.ident) (nodes.map make) := by
  rw [List.forall₂_map_left_iff, List.forall₂_map_right_iff, List.forall₂_same]
  exact each

/-- The file of a method lists its ids, whatever its options execute. -/
theorem lists_fileSteps (collected : DataIds.collect method = .ok ids) :
    Lists config method.ident.className (ids.ids.map Ident.constant) ids.parameterIdents
      (fileSteps config package method (partsOf config method ids executed)) := by
  have parameters : ∀ node ∈ ids.parameters, node.isParameter = true := fun node kept =>
    DataIds.isParameter_of_mem_collect collected kept
  refine ⟨hasEnumeration_fileSteps, ?_, ?_, ?_⟩
  · have initialized : Setup.constructor config method.ident.className ids <:+:
        fileSteps config package method (partsOf config method ids executed) :=
      constructor_infix_fileSteps (partsOf config method ids executed)
    rw [Setup.constructor, Setup.initializers, Setup.separated_eq] at initialized
    refine ⟨_, forall₂_idents ?_, initialized⟩
    intro node _
    exact ⟨Setup.initialValue node, rfl⟩
  · refine ⟨_, forall₂_idents ?_, hasGetter_fileSteps⟩
    intro node _
    exact rfl
  · refine ⟨_, forall₂_idents ?_, hasSetter_fileSteps⟩
    intro node kept
    exact Access.sets_setNodeCase config (parameters node kept)

/-- The enumerators are those of the spellings of the arguments other than constants in the
    order in which they are first seen, and the parameters are those spellings whose first
    argument is a parameter; the data flow comes last where there is a choice of options. The
    parameters are distinct, and every file of the method lists both. -/
theorem collected_listing {method : Method} {ids : DataIds}
    (collected : DataIds.collect method = .ok ids) :
    (method.idents.filter method.firstIsParameter ++ method.selector).Nodup ∧
      (∀ (config : Config) (package : Package) (executed : List Step),
        Lists config method.ident.className
          (method.idents.map Ident.constant ++ method.selector.map Ident.constant)
          (method.idents.filter method.firstIsParameter ++ method.selector)
          (fileSteps config package method (partsOf config method ids executed))) ∧
      ∀ (config : Config) (package : Package) (text : String),
        renderMethod config package method = .ok text →
          ∃ executed, text = Document.render config.indentWidth
            (fileSteps config package method (partsOf config method ids executed)) := by
  have orderly := DataIds.orderly_of_collect collected
  rw [← DataIds.parameterIdents_of_collect collected, ← List.map_append,
    ← DataIds.ids_of_collect collected]
  refine ⟨orderly.nodup_parameters, ?_, ?_⟩
  · intro config package executed
    exact lists_fileSteps collected
  · intro config package text rendered
    obtain ⟨others, executed, collectedToo, -, same⟩ := exists_partsOf rendered
    rw [collected] at collectedToo
    cases collectedToo
    exact ⟨executed, same⟩

example : dataFlow.constant = "DATA_FLOW" := by decide

/-- A method whose options use the spelling `size` first for an input and then for a
    parameter, and `mode` first for a constant. -/
def resizeMethod : Method where
  ident := ⟨"resize"⟩
  options := [
    { ident := ⟨"manual"⟩
      items := [.node (.constant ⟨⟨"mode"⟩, "int", "1"⟩),
        .node (.input { ident := ⟨"size"⟩ } false),
        .node (.parameter { argument := { ident := ⟨"ksize"⟩ } })] },
    { ident := ⟨"allocate"⟩
      items := [.node (.parameter { argument := { ident := ⟨"size"⟩ } }),
        .compound ⟨.size, [.numeric { parameter := { argument := { ident := ⟨"w"⟩ } } },
          .constant ⟨⟨"h"⟩, "int", "3"⟩]⟩,
        .node (.enumeration (EnumParameter.make ⟨"mode"⟩ ""))] }]

/-- The parameter `size` is not listed, as the first `size` is an input. -/
theorem resize_listing :
    ∃ ids, DataIds.collect resizeMethod = .ok ids ∧
      ∀ (config : Config) (package : Package) (executed : List Step),
        Lists config "Resize" ["SIZE", "KSIZE", "W", "MODE", "DATA_FLOW"]
          [⟨"ksize"⟩, ⟨"w"⟩, ⟨"mode"⟩, dataFlow]
          (fileSteps config package resizeMethod (partsOf config resizeMethod ids executed)) := by
  obtain ⟨ids, collected⟩ : ∃ ids, DataIds.collect resizeMethod = .ok ids := ⟨_, rfl⟩
  have enumerators : resizeMethod.idents.map Ident.constant ++
      resizeMethod.selector.map Ident.constant = ["SIZE", "KSIZE", "W", "MODE", "DATA_FLOW"] := by
    decide
  have parameters : resizeMethod.idents.filter resizeMethod.firstIsParameter ++
      resizeMethod.selector = [⟨"ksize"⟩, ⟨"w"⟩, ⟨"mode"⟩, dataFlow] := by
    decide
  have className : resizeMethod.ident.className = "Resize" := by decide
  obtain ⟨-, listed, -⟩ := collected_listing collected
  rw [enumerators, parameters, className] at listed
  exact ⟨ids, collected, listed⟩

end Emission
end OperatorGen
