import Mathlib.Data.List.Nodup
import OperatorGen.Proofs.Emission.Listing
import OperatorGen.Proofs.Validation.Validity

/-!
# Enumerators of a file

Ids are told apart by their spellings when they are collected, and by their enumerators in
the file. In a valid package the arguments of a method keep their enumerators apart. The
data flow is no argument, though, so an argument may share its enumerator
(`TakesDataFlow`): then the enumerator stands twice among the ids, and, if the argument is a
parameter, twice among the cases by which parameters are got and set. Otherwise all of them
are distinct (`rendered_enumerators`).
-/
namespace OperatorGen

/-- With a choice of options there is an argument, no constant, with the enumerator of the data
    flow. -/
def TakesDataFlow (method : Method) : Prop :=
  1 < method.options.length ∧
    ∃ option ∈ method.options, ∃ node ∈ option.arguments,
      node.hasId = true ∧ node.ident.constant = dataFlow.constant

instance : DecidablePred TakesDataFlow := fun _ => inferInstanceAs (Decidable (_ ∧ _))

/-- With a choice of options there is a parameter with the enumerator of the data flow among
    the ids that the method declares. -/
def ParameterTakesDataFlow (method : Method) : Prop :=
  1 < method.options.length ∧
    ∃ node ∈ (DataIds.declared method).parameters, node.ident.constant = dataFlow.constant

instance : DecidablePred ParameterTakesDataFlow := fun _ => inferInstanceAs (Decidable (_ ∧ _))

namespace DataIds

/-- The enumerators of the ids. -/
def enumerators (ids : DataIds) : List String :=
  ids.ids.map Ident.constant

/-- The enumerators of the parameters among the ids. -/
def parameterEnumerators (ids : DataIds) : List String :=
  ids.parameters.map fun node => node.ident.constant

theorem parameterEnumerators_sublist {ids : DataIds} (orderly : Orderly ids) :
    ids.parameterEnumerators.Sublist ids.enumerators := by
  have mapped := orderly.parameters.map Ident.constant
  rwa [List.map_map] at mapped

/-- The ids that a method declares have distinct enumerators if its arguments keep theirs
    apart. -/
theorem nodup_enumerators_declared {method : Method}
    (distinguishes : Validation.Distinguishes method) : (declared method).enumerators.Nodup := by
  refine List.Nodup.map_on ?_ (orderly_declared method).distinct
  intro a inIds b inIds' same
  obtain ⟨option, inMethod, node, inOption, -, rfl⟩ := mem_ids_declared.mp inIds
  obtain ⟨option', inMethod', node', inOption', -, rfl⟩ := mem_ids_declared.mp inIds'
  exact distinguishes node (List.mem_flatMap.mpr ⟨option, inMethod, inOption⟩) node'
    (List.mem_flatMap.mpr ⟨option', inMethod', inOption'⟩) same

/-- Distinct enumerators stay distinct with one more behind them exactly if it is new. -/
theorem nodup_concat_iff {enumerators : List String} {last : String}
    (distinct : enumerators.Nodup) :
    (enumerators ++ [last]).Nodup ↔ last ∉ enumerators := by
  rw [List.nodup_append]
  constructor
  · rintro ⟨-, -, apart⟩ known
    exact apart last known last (by simp) rfl
  · intro new
    refine ⟨distinct, by simp, ?_⟩
    rintro old known _ member rfl
    exact new (List.mem_singleton.mp member ▸ known)

theorem nodup_enumerators_iff {method : Method} {ids : DataIds}
    (distinguishes : Validation.Distinguishes method) (collected : collect method = .ok ids) :
    (ids.enumerators.Nodup ↔ ¬ TakesDataFlow method) ∧
      (ids.parameterEnumerators.Nodup ↔ ¬ ParameterTakesDataFlow method) := by
  have distinct := nodup_enumerators_declared distinguishes
  have parameters : (declared method).parameterEnumerators.Nodup :=
    distinct.sublist (parameterEnumerators_sublist (orderly_declared method))
  rcases collect_cases collected with ⟨few, rfl⟩ | ⟨choice, free, rfl⟩
  · -- Without a choice there is no data flow.
    have single : ¬ 1 < method.options.length := Nat.not_lt_of_le few
    exact ⟨⟨fun _ takes => single takes.1, fun _ => distinct⟩,
      ⟨fun _ takes => single takes.1, fun _ => parameters⟩⟩
  · rw [add_new rfl free]
    have enumerators : dataFlow.constant ∈ (declared method).enumerators ↔
        TakesDataFlow method := by
      rw [TakesDataFlow, and_iff_right choice, enumerators, List.mem_map]
      simp only [mem_ids_declared]
      constructor
      · rintro ⟨_, ⟨option, inMethod, node, inOption, id, rfl⟩, same⟩
        exact ⟨option, inMethod, node, inOption, id, same⟩
      · rintro ⟨option, inMethod, node, inOption, id, same⟩
        exact ⟨node.ident, ⟨option, inMethod, node, inOption, id, rfl⟩, same⟩
    have labels : dataFlow.constant ∈ (declared method).parameterEnumerators ↔
        ParameterTakesDataFlow method := by
      rw [ParameterTakesDataFlow, and_iff_right choice, parameterEnumerators, List.mem_map]
    rw [← enumerators, ← labels, ← nodup_concat_iff distinct, ← nodup_concat_iff parameters]
    constructor
    · rw [DataIds.enumerators, DataIds.enumerators, List.map_append]
      rfl
    · rw [DataIds.parameterEnumerators, DataIds.parameterEnumerators]
      simp only [Node.isParameter, Node.parameter?, Option.isSome_some, if_true, List.map_append]
      rfl

end DataIds

/-! ## Files -/

/-- Steps are the case of a switch for a label: behind the label stands what is done in the case,
    one level deeper. -/
def Access.IsCase (label : String) (steps : List Step) : Prop :=
  ∃ body, steps = [.line ("case " ++ label ++ ":")] ++ Step.nested body

namespace Emission

/-- The ids of a method in the steps of its file: they are enumerated, and there is a case for
    each parameter among them in the functions that get and set a parameter. -/
structure EnumeratesIds (config : Config) (className : String) (ids : DataIds)
    (steps : List Step) : Prop where
  enumeration : HasEnumeration "DataId" ids.enumerators steps
  getter : ∃ cases, List.Forall₂ Access.IsCase ids.parameterEnumerators cases ∧
    HasGetter config className cases steps
  setter : ∃ cases, List.Forall₂ Access.IsCase ids.parameterEnumerators cases ∧
    HasSetter config className cases steps

/-- The cases of the parameters of a method are cases for their enumerators. -/
theorem forall₂_isCase {ids : DataIds} {related : Ident → List Step → Prop}
    {cases : List (List Step)} (listed : List.Forall₂ related ids.parameterIdents cases)
    (isCase : ∀ ident steps, related ident steps → Access.IsCase ident.constant steps) :
    List.Forall₂ Access.IsCase ids.parameterEnumerators cases := by
  have enumerators : ids.parameterEnumerators = ids.parameterIdents.map Ident.constant := by
    rw [DataIds.parameterIdents, List.map_map]
    rfl
  rw [enumerators, List.forall₂_map_left_iff]
  exact listed.imp isCase

theorem enumeratesIds_fileSteps {config : Config} {package : Package} {method : Method}
    {ids : DataIds} {executed : List Step} (collected : DataIds.collect method = .ok ids) :
    EnumeratesIds config method.ident.className ids
      (fileSteps config package method (partsOf config method ids executed)) := by
  have lists := @lists_fileSteps config package method ids executed collected
  obtain ⟨getCases, gets, getter⟩ := lists.getter
  obtain ⟨setCases, sets, setter⟩ := lists.setter
  refine ⟨lists.enumeration, ⟨getCases, forall₂_isCase gets ?_, getter⟩,
    ⟨setCases, forall₂_isCase sets ?_, setter⟩⟩
  · rintro ident _ rfl
    exact ⟨_, rfl⟩
  · rintro ident _ ⟨checks, rfl⟩
    exact ⟨_, rfl⟩

/-- The enumerators of a method in a valid package are distinct unless an argument takes that of
    the data flow, and so are the labels of the cases by which parameters are got and set
    unless a parameter does. -/
theorem rendered_enumerators {config : Config} {package : Package} {method : Method}
    {text : String} (valid : Validation.problems package = []) (member : method ∈ package.methods)
    (rendered : renderMethod config package method = .ok text) :
    ∃ ids steps, DataIds.collect method = .ok ids ∧
      text = Document.render config.indentWidth steps ∧
      EnumeratesIds config method.ident.className ids steps ∧
      (ids.enumerators.Nodup ↔ ¬ TakesDataFlow method) ∧
      (ids.parameterEnumerators.Nodup ↔ ¬ ParameterTakesDataFlow method) := by
  have distinguishes : Validation.Distinguishes method :=
    ((Validation.problems_eq_nil_iff.mp valid).methods method member).enumerators
  obtain ⟨ids, executed, collected, -, same⟩ := exists_partsOf rendered
  exact ⟨ids, _, collected, same, enumeratesIds_fileSteps collected,
    DataIds.nodup_enumerators_iff distinguishes collected⟩

/-- A method with a choice of two options, the first of which has a parameter. -/
def choiceMethod (parameter : Ident) : Method where
  ident := ⟨"blur"⟩
  options := [
    { ident := ⟨"manual"⟩
      items := [.node (.parameter
        { argument := { ident := parameter, nativeType := "int", wrapperType := "Int32" } })] },
    { ident := ⟨"allocate"⟩ }]

/-- The package of such a method. -/
def parameterPackage (parameter : Ident) : Package where
  ident := ⟨"vision"⟩
  version := ⟨1, 0, 0⟩
  methods := [choiceMethod parameter]

/-- Its enumerators are distinct if the parameter is no data flow. -/
theorem choiceMethod_enumerators :
    ∃ text, renderMethod .standard (parameterPackage ⟨"ksize"⟩) (choiceMethod ⟨"ksize"⟩) = .ok text ∧
      ∃ ids steps, DataIds.collect (choiceMethod ⟨"ksize"⟩) = .ok ids ∧
        text = Document.render Config.standard.indentWidth steps ∧
        EnumeratesIds .standard "Blur" ids steps ∧
        ids.enumerators.Nodup ∧ ids.parameterEnumerators.Nodup := by
  obtain ⟨text, rendered⟩ : ∃ text, renderMethod .standard (parameterPackage ⟨"ksize"⟩)
      (choiceMethod ⟨"ksize"⟩) = .ok text := ⟨_, rfl⟩
  have valid : Validation.problems (parameterPackage ⟨"ksize"⟩) = [] := by decide
  obtain ⟨ids, steps, collected, same, enumerated, enumerators, labels⟩ :=
    rendered_enumerators valid (by simp [parameterPackage]) rendered
  exact ⟨text, rendered, ids, steps, collected, same, enumerated,
    enumerators.mpr (by decide), labels.mpr (by decide)⟩

/-- Enumerators need not be distinct: in a valid package a parameter `DataFlow` may take the
    enumerator of the data flow, which then stands twice among the ids and among the cases. -/
theorem shared_enumerator_accepted :
    ¬ ∀ (config : Config) (package : Package) (method : Method) (text : String),
      Validation.problems package = [] → method ∈ package.methods →
        renderMethod config package method = .ok text →
          ∃ ids steps, DataIds.collect method = .ok ids ∧
            text = Document.render config.indentWidth steps ∧
            EnumeratesIds config method.ident.className ids steps ∧
            (ids.enumerators.Nodup ∨ ids.parameterEnumerators.Nodup) := by
  intro distinct
  have valid : Validation.problems (parameterPackage ⟨"DataFlow"⟩) = [] := by decide
  obtain ⟨text, rendered⟩ : ∃ text, renderMethod .standard (parameterPackage ⟨"DataFlow"⟩)
      (choiceMethod ⟨"DataFlow"⟩) = .ok text := ⟨_, rfl⟩
  obtain ⟨ids, -, collected, -, -, either⟩ :=
    distinct .standard _ _ text valid (by simp [parameterPackage]) rendered
  obtain rfl : _ = ids := Except.ok.inj collected
  rcases either with enumerators | labels
  · exact absurd enumerators (by decide)
  · exact absurd labels (by decide)

end Emission
end OperatorGen
