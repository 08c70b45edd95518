import OperatorGen.Proofs.Document
import OperatorGen.Proofs.Emission.Bodies
import OperatorGen.Proofs.Emission.Failure
import OperatorGen.Proofs.Emission.Files
import OperatorGen.Proofs.Emission.Sections

/-!
# The type of a size

The conventions name the type that a size is built with, and only the call of an option with a
size looks at it: under two names of the type, a package without sizes is rendered alike, and
any other fails with the same error or has files whose lines are the same but for those of such
calls (`renderPackage_sizeType`). The steps of two files are compared one by one (`SameStep`),
and a call has as many lines under one name as under the other.
-/
namespace OperatorGen

/-- A value that is built with the type of a size. -/
def Item.isSize : Item → Bool
  | .compound ⟨.size, _⟩ => true
  | _ => false

def MethodOption.hasSize (option : MethodOption) : Bool :=
  option.items.any Item.isSize

/-- Some option of a package has a size. -/
def Package.HasSize (package : Package) : Prop :=
  ∃ method ∈ package.methods, ∃ option ∈ method.options, option.hasSize = true

instance : DecidablePred Package.HasSize := fun _ =>
  inferInstanceAs (Decidable (∃ _ ∈ _, ∃ _ ∈ _, _))

/-! ## Line feeds -/

/-- Texts with as many line feeds. -/
def SameFeeds (first second : String) : Prop :=
  first.toList.count '\n' = second.toList.count '\n'

namespace SameFeeds

variable {first second front other separator : String} {texts others : List String}

theorem append (fronts : SameFeeds front other) (rests : SameFeeds first second) :
    SameFeeds (front ++ first) (other ++ second) := by
  rw [SameFeeds, String.toList_append, String.toList_append, List.count_append, List.count_append,
    fronts, rests]

theorem of_not_mem (whole : '\n' ∉ first.toList) (single : '\n' ∉ second.toList) :
    SameFeeds first second := by
  rw [SameFeeds, List.count_eq_zero.mpr whole, List.count_eq_zero.mpr single]

theorem intercalate (all : List.Forall₂ SameFeeds texts others) :
    SameFeeds (separator.intercalate texts) (separator.intercalate others) := by
  rw [SameFeeds, String.toList_intercalate, String.toList_intercalate]
  induction all with
  | nil => rfl
  | cons head tail ih =>
    cases tail with
    | nil => simpa [SameFeeds] using head
    | cons next rest =>
      simp only [List.map_cons, List.intercalate_cons_cons, List.count_append] at ih ⊢
      rw [ih, head]

end SameFeeds

namespace Emission

/-- The call of the native function by an option. -/
def nativeCall (config : Config) (method : Method) (option : MethodOption) : Step :=
  .line (Body.resultDeclaration config (option.arguments.findSome? Node.output?) ++
    Body.callExpression method.nativeFunction (Body.callArguments config option.items))

/-- Steps that are the same, or the call of an option with a size. -/
def SameStep (config other : Config) (method : Method) (step otherStep : Step) : Prop :=
  step = otherStep ∨ ∃ option ∈ method.options, option.hasSize = true ∧
    step = nativeCall config method option ∧ otherStep = nativeCall other method option

/-- The lines of the call by an option at a level. -/
def callLines (config : Config) (method : Method) (option : MethodOption) (level : Nat) :
    List (List Char) :=
  ((nativeCall config method option).lines level).map (TextLine.chars config.indentWidth)

/-- Lines that are the same, or in the same place of the call of an option with a size. -/
def SameLine (config other : Config) (method : Method) (line otherLine : List Char) : Prop :=
  line = otherLine ∨ ∃ option ∈ method.options, option.hasSize = true ∧ ∃ level,
    (line, otherLine) ∈
      (callLines config method option level).zip (callLines other method option level)

/-- Files that differ in the calls of options with a size at most. -/
structure SameButCalls (config other : Config) (package : Package) (method : Method)
    (file otherFile : File) : Prop where
  path : file.path = filePath package method
  otherPath : otherFile.path = filePath package method
  lines : List.Forall₂ (SameLine config other method)
    (textLines file.contents.toList) (textLines otherFile.contents.toList)

variable {config other : Config} {package : Package} {method : Method} {option : MethodOption}

/-! ## Calls -/

section
variable (same : { config with sizeType := other.sizeType } = other)
include same

theorem dataName_congr (ident : Ident) : other.dataName ident = config.dataName ident := by
  rw [← same]
  rfl

theorem resultDeclaration_congr : Body.resultDeclaration other = Body.resultDeclaration config := by
  rw [← same]
  rfl

theorem indentWidth_congr : other.indentWidth = config.indentWidth := by
  rw [← same]

theorem sameFeeds_expression (own : '\n' ∉ config.sizeType.toList)
    (others : '\n' ∉ other.sizeType.toList) (compound : Compound) :
    SameFeeds (compound.expression config) (compound.expression other) := by
  have names : ", ".intercalate (compound.arguments.map fun node => other.dataName node.ident) =
      ", ".intercalate (compound.arguments.map fun node => config.dataName node.ident) := by
    simp only [dataName_congr same]
  unfold Compound.expression
  rw [names]
  cases compound.constructor with
  | size => exact .append (.append (.append (.of_not_mem own others) rfl) rfl) rfl
  | call name => rfl

/-- The arguments of a call have as many line feeds. -/
theorem sameFeeds_callArguments (own : '\n' ∉ config.sizeType.toList)
    (others : '\n' ∉ other.sizeType.toList) (items : List Item) :
    List.Forall₂ SameFeeds (Body.callArguments config items) (Body.callArguments other items) := by
  induction items with
  | nil => exact .nil
  | cons item rest ih =>
    rw [Body.callArguments, Body.callArguments, List.filterMap_cons, List.filterMap_cons]
    cases item with
    | compound compound => exact .cons (sameFeeds_expression same own others compound) ih
    | node node =>
      cases node with
      | output argument => exact ih
      | _ => exact .cons (by rw [dataName_congr same]; rfl) ih

/-- Without a size the arguments of a call are the same. -/
theorem callArguments_congr {items : List Item} (plain : ∀ item ∈ items, item.isSize = false) :
    Body.callArguments other items = Body.callArguments config items := by
  unfold Body.callArguments
  refine List.filterMap_congr fun item member => ?_
  have kind := plain item member
  cases item with
  | compound compound =>
    obtain ⟨constructor, arguments⟩ := compound
    cases constructor with
    | size => cases kind
    | call name => simp only [Body.callArgument?, Compound.expression, dataName_congr same]
  | node node => cases node <;> simp only [Body.callArgument?, dataName_congr same]

end

/-! ## Steps of two files -/

/-- The only call in a body is that of the option. -/
theorem eq_call_of_mem {function : String} {statements : List Body.Statement}
    (made : Body.ofOption function option = .ok statements) {result : Option Argument}
    {called : String} {items : List Item} (member : .call result called items ∈ statements) :
    result = option.arguments.findSome? Node.output? ∧ called = function ∧
      items = option.items := by
  have noneDeclared (node : Node) : .call result called items ∉ Body.declarationsOf option node := by
    cases node with
    | refInput argument target =>
      rw [Body.declarationsOf]
      split
      · next node _ =>
        cases node with
        | input source inPlace => cases inPlace <;> simp [Body.declareRefInput, Body.guardTarget]
        | _ => simp [Body.declareRefInput, Body.guardTarget]
      · exact List.not_mem_nil
    | _ => simp [Body.declarationsOf, Body.declareInput, Body.declareParameter, Body.declareEnum]
  have noneSent (node : Node) : .call result called items ∉ Body.sendsOf node := by
    cases node <;> simp [Body.sendsOf]
  rw [Body.ofOption_eq made] at member
  simpa [noneDeclared, noneSent] using member

theorem sameSteps_refl (steps : List Step) :
    List.Forall₂ (SameStep config other method) steps steps :=
  List.forall₂_same.mpr fun _ _ => .inl rfl

theorem sameSteps_around {steps otherSteps : List Step} (front back : List Step)
    (all : List.Forall₂ (SameStep config other method) steps otherSteps) :
    List.Forall₂ (SameStep config other method) (front ++ steps ++ back)
      (front ++ otherSteps ++ back) :=
  List.rel_append (List.rel_append (sameSteps_refl front) all) (sameSteps_refl back)

/-- What is made of each element agrees step by step if it does so for every one. -/
theorem sameSteps_flatMap {α : Type} {list : List α} {make otherMake : α → List Step}
    (each : ∀ x ∈ list, List.Forall₂ (SameStep config other method) (make x) (otherMake x)) :
    List.Forall₂ (SameStep config other method) (list.flatMap make) (list.flatMap otherMake) := by
  induction list with
  | nil => exact .nil
  | cons first rest ih =>
    rw [List.forall_mem_cons] at each
    rw [List.flatMap_cons, List.flatMap_cons]
    exact List.rel_append each.1 (ih each.2)

theorem sameSteps_statement (same : { config with sizeType := other.sizeType } = other)
    {statements : List Body.Statement} (inMethod : option ∈ method.options)
    (made : Body.ofOption method.nativeFunction option = .ok statements)
    {statement : Body.Statement} (member : statement ∈ statements) :
    List.Forall₂ (SameStep config other method) (statement.steps config)
      (statement.steps other) := by
  cases statement with
  | call result called items =>
    obtain ⟨rfl, rfl, rfl⟩ := eq_call_of_mem made member
    refine .cons ?_ .nil
    by_cases size : option.hasSize = true
    · exact .inr ⟨option, inMethod, size, rfl, rfl⟩
    · have plain : ∀ item ∈ option.items, item.isSize = false := by
        simpa [MethodOption.hasSize] using size
      exact .inl (by rw [callArguments_congr same plain, resultDeclaration_congr same])
  | _ =>
    rw [← same]
    exact sameSteps_refl _

theorem sameSteps_optionCase {body otherBody : List Step}
    (all : List.Forall₂ (SameStep config other method) body otherBody) :
    List.Forall₂ (SameStep config other method) (Setup.optionCase option body)
      (Setup.optionCase option otherBody) := by
  have around (steps : List Step) : Setup.optionCase option steps =
      [Step.line ("case(" ++ option.ident.constant ++ "):"), Step.indent, Step.line "\x7b",
        Step.indent] ++ steps ++
      [Step.dedent, Step.line "\x7d", Step.line "break;", Step.dedent] := by
    simp [Setup.optionCase, Step.nested, Step.scope]
  rw [around, around]
  exact sameSteps_around _ _ all

theorem sameSteps_forEachOption {ids : DataIds} {code otherCode : MethodOption → List Step}
    (each : ∀ option ∈ method.options,
      List.Forall₂ (SameStep config other method) (code option) (otherCode option)) :
    List.Forall₂ (SameStep config other method) (Setup.forEachOption ids method code)
      (Setup.forEachOption ids method otherCode) := by
  unfold Setup.forEachOption
  split
  · refine sameSteps_around _ _ (sameSteps_flatMap fun option member => ?_)
    exact sameSteps_optionCase (each option member)
  · split
    · next option first => exact each option (List.mem_of_mem_head? first)
    · exact .nil

/-- The file of a method has what is executed in one place, and depends on the type of a size
    nowhere else. -/
theorem exists_around_executed (same : { config with sizeType := other.sizeType } = other)
    (package : Package) (method : Method) (ids : DataIds) :
    ∃ front back, ∀ executed,
      fileSteps config package method (partsOf config method ids executed) =
        front ++ executed ++ back ∧
      fileSteps other package method (partsOf other method ids executed) =
        front ++ executed ++ back := by
  refine ⟨header method ++
      [includeStep package method, Step.blank, Step.line ("namespace " ++ package.ident.text),
        Step.line "\x7b", Step.indent] ++
      (sections (mainSections config package method (partsOf config method ids [])) ++
        ids.parameters.flatMap (nodeConverter config method.ident.className) ++ [Step.blank] ++
        [Step.line ("void " ++ method.ident.className ++ "::execute(" ++
          config.runtime "DataProvider" ++ " & provider)"), Step.line "\x7b", Step.indent]),
    [Step.dedent, Step.line "\x7d", Step.dedent, Step.line "\x7d"], fun executed => ?_⟩
  have here : fileSteps config package method (partsOf config method ids executed) =
      fileSteps other package method (partsOf other method ids executed) := by
    rw [← same]
    rfl
  have whole : sections (mainSections config package method (partsOf config method ids executed)) =
      sections (mainSections config package method (partsOf config method ids [])) := rfl
  rw [← here, and_self, fileSteps, content_eq, whole]
  simp only [execute, Step.scope, Step.nested, partsOf, List.append_assoc, List.cons_append,
    List.nil_append]

/-- Under two names of the type, a method fails with the same error, or its file is made of steps
    that agree. -/
theorem renderMethod_alike (same : { config with sizeType := other.sizeType } = other)
    (package : Package) (method : Method) :
    Alike (fun text otherText => ∃ steps otherSteps,
        List.Forall₂ (SameStep config other method) steps otherSteps ∧
        text = Document.render config.indentWidth steps ∧
        otherText = Document.render config.indentWidth otherSteps)
      (renderMethod config package method) (renderMethod other package method) := by
  cases rendered : renderMethod config package method with
  | error reason =>
    rw [renderMethod_error_iff.mpr (renderMethod_error_iff.mp rendered)]
    exact .error reason
  | ok text =>
    obtain ⟨ids, body, collected, bodies, rfl⟩ := exists_bodies rendered
    rw [renderMethod_of_bodies collected bodies]
    obtain ⟨front, back, around⟩ := exists_around_executed same package method ids
    rw [partsWith, partsWith, (around _).1, (around _).2, indentWidth_congr same]
    refine .ok ⟨_, _, sameSteps_around front back ?_, rfl, rfl⟩
    refine sameSteps_forEachOption fun option inMethod => ?_
    exact sameSteps_flatMap fun statement member =>
      sameSteps_statement same inMethod (bodies option inMethod) member

/-! ## Lines of two files -/

section
variable (same : { config with sizeType := other.sizeType } = other)
  (own : '\n' ∉ config.sizeType.toList) (others : '\n' ∉ other.sizeType.toList)
include same own others

/-- A call has as many lines under one name as under the other. -/
theorem length_callLines (method : Method) (option : MethodOption) (level : Nat) :
    (callLines config method option level).length =
      (callLines other method option level).length := by
  have arguments := sameFeeds_callArguments same own others option.items
  have feeds : SameFeeds
      (Body.callExpression method.nativeFunction (Body.callArguments config option.items))
      (Body.callExpression method.nativeFunction (Body.callArguments other option.items)) :=
    .append (.append rfl (.intercalate arguments)) rfl
  rw [callLines, callLines, List.length_map, List.length_map, nativeCall, nativeCall,
    Step.length_lines, Step.length_lines, resultDeclaration_congr same,
    SameFeeds.append rfl feeds]

theorem sameLines_lines {step otherStep : Step} (level : Nat)
    (agree : SameStep config other method step otherStep) :
    List.Forall₂ (SameLine config other method)
      ((step.lines level).map (TextLine.chars config.indentWidth))
      ((otherStep.lines level).map (TextLine.chars config.indentWidth)) := by
  rcases agree with rfl | ⟨option, inMethod, size, rfl, rfl⟩
  · exact List.forall₂_same.mpr fun _ _ => .inl rfl
  · have calls : List.Forall₂ (SameLine config other method)
        (callLines config method option level) (callLines other method option level) :=
      List.forall₂_iff_zip.mpr ⟨length_callLines same own others method option level,
        fun together => .inr ⟨option, inMethod, size, level, together⟩⟩
    rwa [callLines, callLines, indentWidth_congr same] at calls

/-- Steps that agree keep the same level, and have lines that agree. -/
theorem sameLines_linesFrom {steps otherSteps : List Step} (level : Nat)
    (all : List.Forall₂ (SameStep config other method) steps otherSteps) :
    List.Forall₂ (SameLine config other method)
      ((Step.linesFrom level steps).map (TextLine.chars config.indentWidth))
      ((Step.linesFrom level otherSteps).map (TextLine.chars config.indentWidth)) := by
  induction all generalizing level with
  | nil => exact .nil
  | @cons step otherStep rest otherRest agree tail ih =>
    have level_eq : otherStep.levelAfter level = step.levelAfter level := by
      rcases agree with rfl | ⟨option, inMethod, size, rfl, rfl⟩ <;> rfl
    rw [Step.linesFrom, Step.linesFrom, List.map_append, List.map_append, level_eq]
    exact List.rel_append (sameLines_lines same own others level agree) (ih _)

end

/-! ## Packages -/

/-- Without a size steps that agree are the same. -/
theorem eq_of_sameSteps {steps otherSteps : List Step}
    (plain : ∀ option ∈ method.options, option.hasSize = false)
    (all : List.Forall₂ (SameStep config other method) steps otherSteps) : steps = otherSteps := by
  induction all with
  | nil => rfl
  | cons agree tail ih =>
    rcases agree with rfl | ⟨option, inMethod, size, -, -⟩
    · rw [ih]
    · rw [plain option inMethod] at size
      cases size

/-- Under two names of the type of a size, a package without sizes has the same files or fails
    with the same error. With sizes it fails with the same error, or has files with the same
    paths and as many lines, which differ in the calls of options with a size at most. -/
theorem renderPackage_sizeType (same : { config with sizeType := other.sizeType } = other)
    (own : '\n' ∉ config.sizeType.toList) (others : '\n' ∉ other.sizeType.toList)
    (package : Package) :
    (¬ package.HasSize → renderPackage config package = renderPackage other package) ∧
    Alike (List.Forall₂ fun file otherFile =>
        ∃ method ∈ package.methods, SameButCalls config other package method file otherFile)
      (renderPackage config package) (renderPackage other package) := by
  constructor
  · intro sizeless
    have plain : ∀ method ∈ package.methods, ∀ option ∈ method.options,
        option.hasSize = false := by
      simpa [Package.HasSize] using sizeless
    have each : ∀ method ∈ package.methods,
        Alike (· = ·) (renderMethod config package method) (renderMethod other package method) := by
      intro method inPackage
      refine (renderMethod_alike same package method).imp ?_
      rintro text otherText ⟨steps, otherSteps, all, rfl, rfl⟩
      rw [eq_of_sameSteps (plain method inPackage) all]
    refine alike_eq_iff.mp ((renderMethods_alike each).imp fun files otherFiles all => ?_)
    refine List.forall₂_eq_eq_eq ▸ all.imp ?_
    rintro ⟨path, contents⟩ ⟨otherPath, otherContents⟩ ⟨method, -, rfl, rfl, rfl⟩
    rfl
  · have each : ∀ method ∈ package.methods,
        Alike (fun text otherText => List.Forall₂ (SameLine config other method)
            (textLines text.toList) (textLines otherText.toList))
          (renderMethod config package method) (renderMethod other package method) := by
      intro method inPackage
      refine (renderMethod_alike same package method).imp ?_
      rintro text otherText ⟨steps, otherSteps, all, rfl, rfl⟩
      rw [Document.textLines_render, Document.textLines_render]
      exact List.rel_append (sameLines_linesFrom same own others 0 all) (.cons (.inl rfl) .nil)
    refine (renderMethods_alike each).imp fun files otherFiles all => all.imp ?_
    rintro file otherFile ⟨method, inPackage, path, otherPath, lines⟩
    exact ⟨method, inPackage, path, otherPath, lines⟩

/-- An option that passes a size to the native function. -/
def shrinkOption : MethodOption where
  ident := ⟨"manual"⟩
  items := [
    .node (.input { ident := ⟨"src"⟩ } false), .node (.output { ident := ⟨"dst"⟩ }),
    .compound ⟨.size, [.constant ⟨⟨"w"⟩, "int", "4"⟩, .constant ⟨⟨"h"⟩, "int", "3"⟩]⟩]

def shrinkMethod : Method where
  ident := ⟨"shrink"⟩
  options := [shrinkOption]

def shrinkPackage : Package where
  ident := ⟨"vision"⟩
  version := ⟨1, 0, 0⟩
  methods := [shrinkMethod]

/-- The presets differ in the type of a size, and the files of such a package in its call. -/
theorem shrinkPackage_presets :
    shrinkPackage.HasSize ∧
      nativeCall .opencv shrinkMethod shrinkOption ≠ nativeCall .generic shrinkMethod shrinkOption ∧
      ∃ files otherFiles, renderPackage .opencv shrinkPackage = .ok files ∧
        renderPackage .generic shrinkPackage = .ok otherFiles ∧
        List.Forall₂ (fun file otherFile => ∃ method ∈ shrinkPackage.methods,
          SameButCalls .opencv .generic shrinkPackage method file otherFile) files otherFiles := by
  refine ⟨by decide, by decide +kernel, ?_⟩
  obtain ⟨files, rendered⟩ : ∃ files, renderPackage .opencv shrinkPackage = .ok files := ⟨_, rfl⟩
  obtain ⟨otherFiles, rendered'⟩ : ∃ files, renderPackage .generic shrinkPackage = .ok files :=
    ⟨_, rfl⟩
  have same : { Config.opencv with sizeType := Config.generic.sizeType } = Config.generic := rfl
  have alike := (renderPackage_sizeType same (by decide) (by decide) shrinkPackage).2
  rw [rendered, rendered'] at alike
  cases alike with
  | ok all => exact ⟨files, otherFiles, rendered, rendered', all⟩

end Emission
end OperatorGen
