import OperatorGen.Emission.Setup
import OperatorGen.Proofs.Document
import OperatorGen.Proofs.Emission.Bodies
import OperatorGen.Proofs.Emission.Failure

/-!
# The text of a body

The statements of a body come from all arguments of an option, and some of them wait until the
call has been made. Here the lines of a body are described as they stand in the file, by what
each argument and each item puts there (`BodyLines`). A body has exactly these lines
(`body_text`): nothing is lost, doubled or put elsewhere, and the document goes on at the level
at which the body began.
-/
namespace OperatorGen

/-! ## Lines at their depths -/

/-- A line of code, with how much deeper it is than the code to which it belongs. -/
structure PlacedLine where
  depth : Nat
  text : String
  deriving DecidableEq, Repr

namespace PlacedLine

/-- A line that is not deeper. -/
def plain (text : String) : PlacedLine := ⟨0, text⟩

/-- What lines add to a document at a level. -/
def print (indentWidth : UInt64) (level : Nat) : List PlacedLine → String
  | [] => ""
  | line :: rest =>
    Step.text indentWidth (level + line.depth) (.line line.text) ++ print indentWidth level rest

/-- Whether the spaces of all lines can be counted. -/
def fits (indentWidth : UInt64) (level : Nat) (lines : List PlacedLine) : Bool :=
  lines.all fun line => (Step.line line.text).fits indentWidth (level + line.depth)

theorem print_append (indentWidth : UInt64) (level : Nat) (first second : List PlacedLine) :
    print indentWidth level (first ++ second) =
      print indentWidth level first ++ print indentWidth level second := by
  induction first with
  | nil => exact String.empty_append.symm
  | cons line rest ih => rw [List.cons_append, print, print, ih, String.append_assoc]

end PlacedLine

namespace Step

theorem layOut_append (indentWidth : UInt64) (level : Nat) (first second : List Step) :
    layOut indentWidth level (first ++ second) =
      layOut indentWidth level first ++
        layOut indentWidth (levelAfterAll level first) second := by
  induction first generalizing level with
  | nil => exact String.empty_append.symm
  | cons step rest ih => rw [List.cons_append, layOut, layOut, ih, String.append_assoc]; rfl

/-- Steps add lines, and come back to their level. -/
structure Lays (steps : List Step) (lines : List PlacedLine) : Prop where
  level : ∀ level, levelAfterAll level steps = level
  text : ∀ indentWidth level,
    layOut indentWidth level steps = PlacedLine.print indentWidth level lines
  fits : ∀ indentWidth level,
    fitsAll indentWidth level steps = PlacedLine.fits indentWidth level lines

namespace Lays

variable {steps first second : List Step} {lines above below : List PlacedLine}

theorem nil : Lays [] [] := ⟨fun _ => rfl, fun _ _ => rfl, fun _ _ => rfl⟩

theorem append (lays : Lays first above) (others : Lays second below) :
    Lays (first ++ second) (above ++ below) where
  level level := by rw [levelAfterAll_append, lays.level, others.level]
  text indentWidth level := by
    rw [layOut_append, lays.level, lays.text, others.text, PlacedLine.print_append]
  fits indentWidth level := by
    rw [fitsAll_append, lays.level, lays.fits, others.fits]
    exact List.all_append.symm

theorem line (text : String) : Lays [.line text] [.plain text] where
  level _ := rfl
  text _ _ := rfl
  fits _ _ := rfl

/-- A line that is nested in another one. -/
theorem nestedLine (text : String) : Lays (nested [.line text]) [⟨1, text⟩] where
  level level := Nat.add_sub_cancel level 1
  text _ _ := String.empty_append
  fits _ _ := rfl

theorem plain (texts : List String) : Lays (texts.map .line) (texts.map .plain) := by
  induction texts with
  | nil => exact .nil
  | cons text rest ih => exact (line text).append ih

/-- The lines of a list of steps, where each element has lines of some kind. -/
theorem flatMap {α : Type} {kind : α → List PlacedLine → Prop} {list : List α}
    {make : α → List Step} (each : ∀ x ∈ list, ∃ lines, kind x lines ∧ Lays (make x) lines) :
    ∃ lines, List.Forall₂ kind list lines ∧ Lays (list.flatMap make) lines.flatten := by
  induction list with
  | nil => exact ⟨[], .nil, .nil⟩
  | cons x rest ih =>
    rw [List.forall_mem_cons] at each
    obtain ⟨⟨lines, isKind, lays⟩, others⟩ := each
    obtain ⟨below, kinds, laysBelow⟩ := ih others
    exact ⟨lines :: below, .cons isKind kinds, lays.append laysBelow⟩

end Lays
end Step

/-- A document to which steps are added goes on at its level, behind the lines of the steps. -/
theorem Document.addAll_of_lays {steps : List Step} {lines : List PlacedLine}
    (lays : Step.Lays steps lines) (document : Document) :
    document.addAll steps =
      { document with
        text := document.text ++ PlacedLine.print document.indentWidth document.level lines } := by
  rw [Document.addAll_eq, lays.level, lays.text]

namespace Body

/-! ## What stands in a body -/

/-- The lines that declare the native variable of an argument in front of the call. The buffer
    of a ref input is refused where it is that of an input that must not be written to. -/
inductive Declares (config : Config) (option : MethodOption) : Node → List PlacedLine → Prop
  | input {argument : Argument} {inPlace : Bool} :
    Declares config option (.input argument inPlace)
      [.plain (config.runtime "DataContainer" ++ " " ++ containerName argument.ident ++
          " = provider.receiveInputData(" ++ argument.ident.constant ++ ");"),
       .plain (config.runtime "ReadAccess" ++ " " ++ accessName .read argument.ident ++ "(" ++
          containerName argument.ident ++ ");"),
       .plain (argument.nativeType ++ " " ++ config.dataName argument.ident ++ " = " ++
          nativeFrom argument.nativeType (accessName .read argument.ident ++ "()") ++ ";")]
  | refInput {argument : Argument} {target : Ident} {node : Node}
      (resolved : option.resolve? argument target = some node)
      (free : ∀ source, node ≠ .input source false) :
    Declares config option (.refInput argument target)
      [.plain (config.runtime "DataContainer" ++ " " ++ containerName argument.ident ++
          " = provider.receiveInputData(" ++ argument.ident.constant ++ ");"),
       .plain (config.runtime "WriteAccess" ++ " " ++ accessName .write argument.ident ++ "(" ++
          containerName argument.ident ++ ");"),
       .plain (argument.nativeType ++ " " ++ config.dataName argument.ident ++ " = " ++
          nativeFrom argument.nativeType (accessName .write argument.ident ++ "()") ++ ";")]
  | guarded {argument source : Argument} {target : Ident}
      (resolved : option.resolve? argument target = some (.input source false)) :
    Declares config option (.refInput argument target)
      [.plain (config.runtime "DataContainer" ++ " " ++ containerName argument.ident ++
          " = provider.receiveInputData(" ++ argument.ident.constant ++ ");"),
       .plain ("if(" ++ containerName argument.ident ++ " == " ++ containerName source.ident ++
          ")"),
       ⟨1, "throw " ++ config.runtime "InputError" ++ "(" ++ source.ident.constant ++
          ", *this, \"Can not operate in place.\");"⟩,
       .plain (config.runtime "WriteAccess" ++ " " ++ accessName .write argument.ident ++ "(" ++
          containerName argument.ident ++ ");"),
       .plain (argument.nativeType ++ " " ++ config.dataName argument.ident ++ " = " ++
          nativeFrom argument.nativeType (accessName .write argument.ident ++ "()") ++ ";")]
  | allocation {argument : Argument} :
    Declares config option (.allocation argument)
      [.plain (argument.nativeType ++ " " ++ config.dataName argument.ident ++ ";")]
  | constant {c : Constant} :
    Declares config option (.constant c)
      [.plain (c.nativeType ++ " " ++ config.dataName c.ident ++ " = " ++ c.value ++ ";")]
  | parameter {p : Parameter} :
    Declares config option (.parameter p)
      [.plain (p.argument.nativeType ++ " " ++ config.dataName p.argument.ident ++ " = " ++
        nativeFrom p.argument.nativeType p.argument.ident.member ++ ";")]
  | numeric {n : NumericParameter} :
    Declares config option (.numeric n)
      [.plain (n.parameter.argument.nativeType ++ " " ++
        config.dataName n.parameter.argument.ident ++ " = " ++
          nativeFrom n.parameter.argument.nativeType n.parameter.argument.ident.member ++ ";")]
  | enumeration {e : EnumParameter} :
    Declares config option (.enumeration e)
      [.plain (e.parameter.argument.nativeType ++ " " ++
        config.dataName e.parameter.argument.ident ++ " = " ++
          (converterName e.parameter.argument.ident ++ "(" ++ e.parameter.argument.ident.member ++
            ")") ++ ";")]

/-- What an item puts into the argument list of the call: one expression, or nothing if it is an
    output. -/
inductive Passes (config : Config) : Item → List String → Prop
  | output {argument : Argument} : Passes config (.node (.output argument)) []
  | node {node : Node} (other : node.isOutput = false) :
    Passes config (.node node) [config.dataName node.ident]
  | size {nodes : List Node} :
    Passes config (.compound ⟨.size, nodes⟩)
      [config.sizeType ++ "(" ++
        ", ".intercalate (nodes.map fun node => config.dataName node.ident) ++ ")"]
  | construction {name : String} {nodes : List Node} :
    Passes config (.compound ⟨.call name, nodes⟩)
      [name ++ "(" ++ ", ".intercalate (nodes.map fun node => config.dataName node.ident) ++ ")"]

/-- What stands in front of the call: the declaration of its result, if one of the arguments is
    an output. -/
inductive Assigns (config : Config) (nodes : List Node) : String → Prop
  | result {argument : Argument} (only : nodes.filterMap Node.output? = [argument]) :
    Assigns config nodes (argument.nativeType ++ " " ++ config.dataName argument.ident ++ " = ")
  | none (without : nodes.filterMap Node.output? = []) : Assigns config nodes ""

/-- The line that hands an argument back. -/
inductive HandsBack (config : Config) : Node → List PlacedLine → Prop
  | output {argument : Argument} :
    HandsBack config (.output argument)
      [.plain ("provider.sendOutputData(" ++ argument.ident.constant ++ ", " ++
        (config.runtime "DataContainer" ++ "(cvsupport::wrap(" ++
          config.dataName argument.ident ++ "))") ++ ");")]
  | allocation {argument : Argument} :
    HandsBack config (.allocation argument)
      [.plain ("provider.sendOutputData(" ++ argument.ident.constant ++ ", " ++
        (config.runtime "DataContainer" ++ "(cvsupport::wrap(" ++
          config.dataName argument.ident ++ "))") ++ ");")]
  | refInput {argument : Argument} {target : Ident} :
    HandsBack config (.refInput argument target)
      [.plain ("provider.sendOutputData(" ++ argument.ident.constant ++ ", " ++
        containerName argument.ident ++ ");")]

/-- The lines of a body. Around the call stand the fragments of all arguments but constants, in
    front of them the declarations, and at the end what is handed back. -/
inductive BodyLines (config : Config) (function : String) (option : MethodOption) :
    List PlacedLine → Prop
  | intro {declarations sends : List (List PlacedLine)} {entries : List (List String)}
      {result : String}
      (declares : List.Forall₂ (Declares config option)
        (option.arguments.filter fun node => !node.isOutput) declarations)
      (passes : List.Forall₂ (Passes config) option.items entries)
      (assigns : Assigns config option.arguments result)
      (handsBack : List.Forall₂ (HandsBack config)
        (option.arguments.filter (Setup.isOn .outputs)) sends) :
    BodyLines config function option
      (declarations.flatten ++
        ((option.arguments.filterMap Node.argument?).flatMap Argument.initIn).map .plain ++
        [.plain ""] ++
        [.plain (result ++ (function ++ "(" ++ ", ".intercalate entries.flatten ++ ");"))] ++
        [.plain ""] ++
        ((option.arguments.filterMap Node.argument?).flatMap Argument.initOut).map .plain ++
        sends.flatten)

theorem rightUnique_declares {config : Config} {option : MethodOption} :
    Relator.RightUnique (Declares config option) := by
  intro node lines others first second
  cases first with
  | refInput resolved free =>
    cases second with
    | refInput => rfl
    | guarded resolved' =>
      rw [resolved] at resolved'
      exact absurd (Option.some.inj resolved') (free _)
  | guarded resolved =>
    cases second with
    | refInput resolved' free =>
      rw [resolved'] at resolved
      exact absurd (Option.some.inj resolved) (free _)
    | guarded resolved' =>
      rw [resolved] at resolved'
      cases resolved'
      rfl
  | _ => cases second; rfl

theorem rightUnique_passes {config : Config} : Relator.RightUnique (Passes config) := by
  intro item entries others first second
  cases first with
  | output =>
    cases second with
    | output => rfl
    | node other => cases other
  | node other =>
    cases second with
    | output => cases other
    | node => rfl
  | _ => cases second; rfl

theorem rightUnique_assigns {config : Config} : Relator.RightUnique (Assigns config) := by
  intro nodes text other first second
  cases first with
  | result only =>
    cases second with
    | result only' =>
      rw [only] at only'
      cases only'
      rfl
    | none without =>
      rw [only] at without
      cases without
  | none without =>
    cases second with
    | result only =>
      rw [only] at without
      cases without
    | none => rfl

theorem rightUnique_handsBack {config : Config} : Relator.RightUnique (HandsBack config) := by
  intro node lines others first second
  cases first <;> cases second <;> rfl

/-- An option has one list of lines. -/
theorem BodyLines.unique {config : Config} {function : String} {option : MethodOption}
    {lines others : List PlacedLine} (first : BodyLines config function option lines)
    (second : BodyLines config function option others) : lines = others := by
  obtain ⟨declares, passes, assigns, handsBack⟩ := first
  obtain ⟨declares', passes', assigns', handsBack'⟩ := second
  obtain rfl := rightUnique_declares.forall₂ declares declares'
  obtain rfl := rightUnique_passes.forall₂ passes passes'
  obtain rfl := rightUnique_assigns assigns assigns'
  obtain rfl := rightUnique_handsBack.forall₂ handsBack handsBack'
  rfl

/-! ## What each argument and each item puts there -/

variable {config : Config} {option : MethodOption} {node : Node} {nodes : List Node}

theorem code_append (first second : List Statement) :
    code config (first ++ second) = code config first ++ code config second :=
  List.flatMap_append

theorem lays_guard (ident source : Ident) :
    Step.Lays (Statement.steps config (.guard ident source))
      [.plain ("if(" ++ containerName ident ++ " == " ++ containerName source ++ ")"),
       ⟨1, "throw " ++ config.runtime "InputError" ++ "(" ++ source.constant ++
          ", *this, \"Can not operate in place.\");"⟩] :=
  (Step.Lays.line _).append (.nestedLine _)

theorem lays_declarationsOf (resolved : ¬ Dangles option [node]) (other : node.isOutput = false) :
    ∃ lines, Declares config option node lines ∧
      Step.Lays (code config (declarationsOf option node)) lines := by
  cases node with
  | output argument => cases other
  | input argument inPlace => exact ⟨_, .input, .plain [_, _, _]⟩
  | refInput argument target =>
    obtain ⟨source, found⟩ := exists_target resolved
    rw [declarationsOf, found]
    by_cases free : ∀ input, source ≠ .input input false
    · have unguarded : guardTarget argument.ident source = [] := by
        unfold guardTarget
        split
        · next input => exact absurd rfl (free input)
        · rfl
      simp only [declareRefInput, unguarded, List.append_nil]
      exact ⟨_, .refInput found free, .plain [_, _, _]⟩
    · push Not at free
      obtain ⟨input, rfl⟩ := free
      exact ⟨_, .guarded found,
        (Step.Lays.line _).append ((lays_guard _ _).append (.plain [_, _]))⟩
  | allocation argument => exact ⟨_, .allocation, .line _⟩
  | constant c => exact ⟨_, .constant, .line _⟩
  | parameter p => exact ⟨_, .parameter, .line _⟩
  | numeric n => exact ⟨_, .numeric, .line _⟩
  | enumeration e => exact ⟨_, .enumeration, .line _⟩

theorem lays_sendsOf (onSide : Setup.isOn .outputs node = true) :
    ∃ lines, HandsBack config node lines ∧ Step.Lays (code config (sendsOf node)) lines := by
  cases node with
  | output argument => exact ⟨_, .output, .line _⟩
  | refInput argument target => exact ⟨_, .refInput, .line _⟩
  | allocation argument => exact ⟨_, .allocation, .line _⟩
  | _ => cases onSide

/-- Each item of an option passes what the call has for it. -/
theorem passes_callArguments (config : Config) (items : List Item) :
    ∃ entries, List.Forall₂ (Passes config) items entries ∧
      callArguments config items = entries.flatten := by
  refine ⟨items.map fun item => (callArgument? config item).toList, ?_, ?_⟩
  · rw [List.forall₂_map_right_iff, List.forall₂_same]
    intro item _
    rcases item with node | ⟨_ | name, nodes⟩
    · cases node with
      | output argument => exact .output
      | _ => exact .node rfl
    · exact .size
    · exact .construction
  · rw [callArguments, List.filterMap_eq_flatMap_toList, List.flatMap_def]

theorem countP_isOutput (nodes : List Node) :
    nodes.countP Node.isOutput = (nodes.filterMap Node.output?).length := by
  rw [List.length_filterMap_eq_countP]
  refine List.countP_congr fun node _ => ?_
  cases node <;> simp [Node.isOutput, Node.output?]

/-- The result of the call is the output, if there is one. -/
theorem assigns_resultDeclaration (config : Config)
    (single : nodes.countP Node.isOutput ≤ 1) :
    Assigns config nodes (resultDeclaration config (nodes.findSome? Node.output?)) := by
  rw [countP_isOutput] at single
  rw [← List.head?_filterMap]
  rcases outputs : nodes.filterMap Node.output? with _ | ⟨argument, _ | ⟨second, rest⟩⟩
  · exact .none outputs
  · exact .result outputs
  · simp [outputs] at single

/-! ## The whole text -/

/-- Elements that make nothing can be left out. -/
theorem flatMap_filter_of_nil {α β : Type} {kept : α → Bool} {make : α → List β} {list : List α}
    (nothing : ∀ x, kept x = false → make x = []) :
    list.flatMap make = (list.filter kept).flatMap make := by
  induction list with
  | nil => rfl
  | cons x rest ih =>
    rw [List.flatMap_cons, ih, List.filter_cons]
    cases isKept : kept x
    · rw [nothing x isKept]
      rfl
    · rfl

theorem fragments_eq (part : Argument → List String) (nodes : List Node) :
    (nodes.flatMap fun node => (node.argument?.map part).getD []) =
      (nodes.filterMap Node.argument?).flatMap part := by
  induction nodes with
  | nil => rfl
  | cons node rest ih =>
    rw [List.flatMap_cons, ih, List.filterMap_cons]
    cases node.argument? <;> rfl

theorem code_fragments (config : Config) (texts : List String) :
    code config (texts.map .fragment) = texts.map .line := by
  rw [code, List.flatMap_map, List.map_eq_flatMap]
  rfl

/-- The statements of a body have its lines. -/
theorem lays_ofOption (config : Config) {function : String} {statements : List Statement}
    (made : ofOption function option = .ok statements) :
    ∃ lines, BodyLines config function option lines ∧ Step.Lays (code config statements) lines := by
  obtain ⟨single, resolved⟩ := sound_of_ofOption made
  have eachDeclares : ∀ node ∈ option.arguments.filter fun node => !node.isOutput,
      ∃ lines, Declares config option node lines ∧
        Step.Lays (code config (declarationsOf option node)) lines := by
    intro node member
    obtain ⟨inArguments, other⟩ := List.mem_filter.mp member
    refine lays_declarationsOf ?_ (by simpa using other)
    rintro ⟨argument, target, here, dangling⟩
    rw [List.mem_singleton] at here
    exact resolved ⟨argument, target, here ▸ inArguments, dangling⟩
  have eachHandsBack : ∀ node ∈ option.arguments.filter (Setup.isOn .outputs),
      ∃ lines, HandsBack config node lines ∧ Step.Lays (code config (sendsOf node)) lines :=
    fun node member => lays_sendsOf (List.mem_filter.mp member).2
  obtain ⟨declarations, declares, laysDeclarations⟩ := Step.Lays.flatMap eachDeclares
  obtain ⟨sends, handsBack, laysSends⟩ := Step.Lays.flatMap eachHandsBack
  obtain ⟨entries, passes, called⟩ := passes_callArguments config option.items
  have withoutOutputs : ∀ node : Node, (!node.isOutput) = false →
      code config (declarationsOf option node) = [] := by
    intro node isOutput
    cases node <;> first | rfl | cases isOutput
  have withoutInputs : ∀ node, Setup.isOn .outputs node = false →
      code config (sendsOf node) = [] := by
    intro node other
    cases node <;> first | rfl | cases other
  refine ⟨_, .intro declares passes (assigns_resultDeclaration config single) handsBack, ?_⟩
  rw [← flatMap_filter_of_nil withoutOutputs] at laysDeclarations
  rw [← flatMap_filter_of_nil withoutInputs] at laysSends
  have call := Step.Lays.line (resultDeclaration config (option.arguments.findSome? Node.output?) ++
    callExpression function (callArguments config option.items))
  rw [callExpression, called] at call
  have before : option.arguments.flatMap Node.fragmentsBefore =
      (option.arguments.filterMap Node.argument?).flatMap Argument.initIn := fragments_eq _ _
  have after : option.arguments.flatMap Node.fragmentsAfter =
      (option.arguments.filterMap Node.argument?).flatMap Argument.initOut := fragments_eq _ _
  have code_flatMap : ∀ make : Node → List Statement, code config (option.arguments.flatMap make) =
      option.arguments.flatMap fun node => code config (make node) := fun _ => List.flatMap_assoc
  rw [ofOption_eq made]
  simp only [code_append, code_fragments, before, after, code_flatMap]
  rw [← called] at call ⊢
  exact (((((laysDeclarations.append (.plain _)).append (.line "")).append call).append
    (.line "")).append (.plain _)).append laysSends

/-- A body has exactly the lines that its arguments and its items put there, in any document and
    under any conventions, and the document goes on at its level. A run stops in it exactly if
    the spaces of one of these lines cannot be counted. -/
theorem body_text {function : String} {statements : List Statement}
    (made : ofOption function option = .ok statements) (config : Config) :
    ∃ lines, BodyLines config function option lines ∧
      (∀ others, BodyLines config function option others → others = lines) ∧
      ∀ document : Document,
        document.addAll (code config statements) =
          { document with
            text := document.text ++
              PlacedLine.print document.indentWidth document.level lines } ∧
        document.run (code config statements) =
          if PlacedLine.fits document.indentWidth document.level lines then
            some (document.addAll (code config statements))
          else none := by
  obtain ⟨lines, isBody, lays⟩ := lays_ofOption config made
  refine ⟨lines, isBody, fun _ other => other.unique isBody, fun document => ⟨?_, ?_⟩⟩
  · exact Document.addAll_of_lays lays document
  · rw [Document.run_eq, lays.fits]

/-- An option with an output behind a compound, a constant, and a buffer that must not be that of
    the input. -/
def measureOption : MethodOption where
  ident := ⟨"measure"⟩
  items := [
    .node (.input { ident := ⟨"src"⟩, nativeType := "cv::Mat", initIn := ["src.check();"] } false),
    .node (.refInput { ident := ⟨"dst"⟩, nativeType := "cv::Mat", initOut := ["dst.done();"] }
      ⟨"src"⟩),
    .compound ⟨.size, [.constant ⟨⟨"w"⟩, "int", "3"⟩,
      .numeric { parameter := { argument := { ident := ⟨"h"⟩, nativeType := "int" } } }]⟩,
    .node (.output { ident := ⟨"mean"⟩, nativeType := "double" })]

theorem measureOption_text :
    ∃ statements lines, ofOption "cv::measure" measureOption = .ok statements ∧
      BodyLines .standard "cv::measure" measureOption lines ∧
        PlacedLine.print 4 1 lines =
          "    runtime::DataContainer srcContainer = provider.receiveInputData(SRC);\n" ++
          "    runtime::ReadAccess srcReadAccess(srcContainer);\n" ++
          "    cv::Mat srcCvData = cvsupport::getOpenCvMat(srcReadAccess());\n" ++
          "    runtime::DataContainer dstContainer = provider.receiveInputData(DST);\n" ++
          "    if(dstContainer == srcContainer)\n" ++
          "        throw runtime::InputError(SRC, *this, \"Can not operate in place.\");\n" ++
          "    runtime::WriteAccess dstWriteAccess(dstContainer);\n" ++
          "    cv::Mat dstCvData = cvsupport::getOpenCvMat(dstWriteAccess());\n" ++
          "    int wCvData = 3;\n" ++
          "    int hCvData = int(m_h);\n" ++
          "    src.check();\n" ++
          "\n" ++
          "    double meanCvData = cv::measure(srcCvData, dstCvData, " ++
            "cv::Size(wCvData, hCvData));\n" ++
          "\n" ++
          "    dst.done();\n" ++
          "    provider.sendOutputData(DST, dstContainer);\n" ++
          "    provider.sendOutputData(MEAN, " ++
            "runtime::DataContainer(cvsupport::wrap(meanCvData)));\n" := by
  obtain ⟨statements, made⟩ : ∃ statements, ofOption "cv::measure" measureOption =
      .ok statements := ⟨_, rfl⟩
  obtain ⟨lines, isBody, -, run⟩ := body_text made .standard
  refine ⟨statements, lines, made, isBody, ?_⟩
  have text : (Document.addAll ⟨4, 1, ""⟩ (code .standard statements)).text =
      PlacedLine.print 4 1 lines := by
    rw [(run ⟨4, 1, ""⟩).1]
    exact String.empty_append
  rw [← text]
  cases made
  decide +kernel

end Body
end OperatorGen
