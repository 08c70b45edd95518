import OperatorGen.Proofs.Emission.Bodies
import OperatorGen.Proofs.Emission.Failure
import OperatorGen.Proofs.Emission.Variables

/-!
# Definition before use

The declarations of a body follow the order in which the definition has the arguments, so a
variable can be used before it is declared. This happens in two cases: a ref input stands in
front of the input that its guard compares it with (`SourcesReceived` fails), and a compound
is built from the output, which only the call declares (`CompoundsDeclared` fails). In every
other case each variable is declared by a line in front of the one that uses it
(`body_definedBeforeUse`).
-/
namespace OperatorGen

/-- The constituents of a compound. -/
def Item.constituents : Item → List Node
  | node _ => []
  | compound c => c.arguments

namespace Body

/-- Every variable that a line uses has the name of one that an earlier line declares. -/
def DefinedBeforeUse (config : Config) (lines : List Line) : Prop :=
  ∀ earlier line later, lines = earlier ++ line :: later → ∀ v ∈ used line,
    v.name config ∈ (earlier.flatMap declared).map (Variable.name config)

/-! ## Scopes -/

/-- Lines use no variables but known ones and those that lines before them declare. -/
def Scoped : (known : List Variable) → List Line → Prop
  | _, [] => True
  | known, line :: rest => (∀ v ∈ used line, v ∈ known) ∧ Scoped (known ++ declared line) rest

theorem scoped_append {known : List Variable} {first second : List Line} :
    Scoped known (first ++ second) ↔
      Scoped known first ∧ Scoped (known ++ first.flatMap declared) second := by
  induction first generalizing known with
  | nil => simp [Scoped]
  | cons line rest ih => simp [Scoped, ih, and_assoc, List.append_assoc]

/-- Each line by itself uses known variables and those of the lines before it. -/
theorem scoped_iff {known : List Variable} {lines : List Line} :
    Scoped known lines ↔ ∀ earlier line later, lines = earlier ++ line :: later →
      ∀ v ∈ used line, v ∈ known ++ earlier.flatMap declared := by
  constructor
  · rintro all earlier line later rfl
    rw [scoped_append] at all
    exact all.2.1
  · intro each
    induction lines generalizing known with
    | nil => trivial
    | cons first rest ih =>
      constructor
      · have head := each [] first rest rfl
        simpa using head
      · apply ih
        intro earlier line later split v uses
        have tail := each (first :: earlier) line later (by rw [split]; rfl) v uses
        simpa [List.append_assoc] using tail

theorem definedBeforeUse_of_scoped (config : Config) {lines : List Line}
    (all : Scoped [] lines) : DefinedBeforeUse config lines := by
  intro earlier line later split v uses
  have known := scoped_iff.mp all earlier line later split v uses
  rw [List.nil_append] at known
  exact List.mem_map_of_mem known

/-- Where variables are told apart by their names, the names are enough. -/
theorem scoped_of_definedBeforeUse {config : Config} {lines : List Line}
    (apart : Function.Injective (Variable.name config))
    (defined : DefinedBeforeUse config lines) : Scoped [] lines := by
  rw [scoped_iff]
  intro earlier line later split v uses
  have named := defined earlier line later split v uses
  rw [List.nil_append]
  exact (List.mem_map_of_injective apart).mp named

/-! ## Declarations of the arguments -/

/-- The variables that an argument declares in front of the call. -/
def variablesOf : Node → List Variable
  | .input argument _ =>
    [.container argument.ident, .opened .read argument.ident, .native argument.ident]
  | .refInput argument _ =>
    [.container argument.ident, .opened .write argument.ident, .native argument.ident]
  | .output _ => []
  | node => [.native node.ident]

/-- The source that the guard of an argument compares it with. -/
def guardSource? (option : MethodOption) : Node → Option Ident
  | .refInput argument target =>
    match option.resolve? argument target with
    | some (.input source false) => some source.ident
    | _ => none
  | _ => none

/-- Every source that a guard compares an argument with is received by that argument or by one
    before it. -/
def SourcesReceived (option : MethodOption) : Prop :=
  ∀ i : Fin option.arguments.length, ∀ source ∈ guardSource? option option.arguments[i],
    ∃ other ∈ option.arguments.take (i + 1),
      Setup.isOn .inputs other = true ∧ other.ident = source

instance : DecidablePred SourcesReceived := fun _ => inferInstanceAs (Decidable (∀ _, _))

/-- Every constituent of a compound has the spelling of an argument that is no output. -/
def CompoundsDeclared (option : MethodOption) : Prop :=
  ∀ item ∈ option.items, ∀ node ∈ item.constituents,
    ∃ other ∈ option.arguments, other.isOutput = false ∧ other.ident = node.ident

instance : DecidablePred CompoundsDeclared := fun _ => inferInstanceAs (Decidable (∀ _ ∈ _, _))

variable {config : Config} {option : MethodOption} {known : List Variable} {node : Node}
  {nodes before : List Node} {ident : Ident}

theorem container_mem_iff :
    .container ident ∈ nodes.flatMap variablesOf ↔
      ∃ other ∈ nodes, Setup.isOn .inputs other = true ∧ other.ident = ident := by
  rw [List.mem_flatMap]
  refine exists_congr fun other => and_congr_right fun _ => ?_
  cases other <;> simp [variablesOf, Setup.isOn, Node.ident, eq_comm]

theorem native_mem_iff :
    .native ident ∈ nodes.flatMap variablesOf ↔
      ∃ other ∈ nodes, other.isOutput = false ∧ other.ident = ident := by
  rw [List.mem_flatMap]
  refine exists_congr fun other => and_congr_right fun _ => ?_
  cases other <;> simp [variablesOf, Node.isOutput, Node.ident, eq_comm]

theorem declared_declarationsOf (resolved : ¬ Dangles option [node]) :
    (lines config (declarationsOf option node)).flatMap declared = variablesOf node := by
  cases node with
  | refInput argument target =>
    obtain ⟨other, found⟩ := exists_target resolved
    have guarded : (lines config (guardTarget argument.ident other)).flatMap declared = [] := by
      rcases other with ⟨source, _ | _⟩ | _ | _ | _ | _ | _ | _ | _ <;>
        simp [guardTarget, Statement.lines, declared]
    simp [declarationsOf, found, declareRefInput, Statement.lines, declared, guarded, variablesOf]
  | _ => simp [declarationsOf, declareInput, declareParameter, declareEnum, Statement.lines,
      declared, variablesOf, Node.ident]

/-- The declarations of an argument use variables of their own but for the source of the
    guard. -/
theorem scoped_declarationsOf :
    Scoped known (lines config (declarationsOf option node)) ↔
      ∀ source ∈ guardSource? option node, .container source ∈ known ∨ node.ident = source := by
  cases node with
  | refInput argument target =>
    cases found : option.resolve? argument target with
    | none => simp [declarationsOf, guardSource?, found, Scoped]
    | some other =>
      rcases other with ⟨source, _ | _⟩ | _ | _ | _ | _ | _ | _ | _ <;>
        simp [declarationsOf, guardSource?, found, declareRefInput, guardTarget, Statement.lines,
          Initial.pieces, Scoped, declared, used, Node.ident, or_comm, eq_comm]
  | _ => simp [declarationsOf, declareInput, declareParameter, declareEnum, guardSource?,
      Statement.lines, Initial.pieces, Scoped, declared, used]

theorem declared_declarations (resolved : ¬ Dangles option nodes) :
    (lines config (nodes.flatMap (declarationsOf option))).flatMap declared =
      nodes.flatMap variablesOf := by
  induction nodes with
  | nil => rfl
  | cons node rest ih =>
    rw [dangles_cons, not_or] at resolved
    rw [List.flatMap_cons, lines_append, List.flatMap_append, ih resolved.2,
      declared_declarationsOf resolved.1, List.flatMap_cons]

/-- Only ref inputs have guards, and they are received. -/
theorem isOn_of_guardSource? {source : Ident} (guarded : source ∈ guardSource? option node) :
    Setup.isOn .inputs node = true := by
  cases node with
  | refInput argument target => rfl
  | _ => cases guarded

/-- The declarations of arguments behind others use variables of their own exactly if every
    source is received before it is compared with. -/
theorem scoped_declarations (resolved : ¬ Dangles option nodes) :
    Scoped (before.flatMap variablesOf) (lines config (nodes.flatMap (declarationsOf option))) ↔
      ∀ i : Fin nodes.length, ∀ source ∈ guardSource? option nodes[i],
        ∃ other ∈ before ++ nodes.take (i + 1),
          Setup.isOn .inputs other = true ∧ other.ident = source := by
  induction nodes generalizing before with
  | nil => simp [Scoped]
  | cons node rest ih =>
    rw [dangles_cons, not_or] at resolved
    have tail := @ih (before ++ [node]) resolved.2
    rw [List.flatMap_append, List.flatMap_singleton] at tail
    rw [List.flatMap_cons, lines_append, scoped_append, declared_declarationsOf resolved.1, tail,
      scoped_declarationsOf]
    refine Iff.trans (and_congr ?_ ?_) (Fin.forall_fin_succ (n := rest.length)).symm
    · -- The guard of this argument may compare it with itself or with one before it.
      refine forall₂_congr fun source guarded => ?_
      have received := isOn_of_guardSource? guarded
      rw [container_mem_iff]
      simp only [Fin.val_zero, Nat.zero_add, List.take_succ_cons, List.take_zero,
        List.mem_append, List.mem_singleton, or_and_right, exists_or, exists_eq_left, received,
        true_and]
    · refine forall_congr' fun i => ?_
      simp

/-! ## The call and what is handed back -/

/-- Lines that use known variables only. -/
theorem scoped_of_known {lines : List Line} (uses : ∀ v ∈ lines.flatMap used, v ∈ known) :
    Scoped known lines := by
  rw [scoped_iff]
  rintro earlier line later rfl v inLine
  apply List.mem_append_left
  apply uses v
  simp [inLine]

/-- The variables of an item in the argument list of the call. -/
def callVariables : Item → List Variable
  | .node (.output _) => []
  | .node node => [.native node.ident]
  | .compound compound => compound.arguments.map fun node => .native node.ident

theorem used_natives (nodes : List Node) :
    (nodes.map fun node => [Piece.uses (.native node.ident)]).flatMap used =
      nodes.map fun node => Variable.native node.ident := by
  induction nodes with
  | nil => rfl
  | cons node rest ih => simp [used, ih]

theorem used_call (result : Option Argument) (function : String) (items : List Item) :
    ((Statement.call result function items).lines config).flatMap used =
      items.flatMap callVariables := by
  have each : ∀ item : Item, (argumentPieces? config item).toList.flatMap used =
      callVariables item := by
    intro item
    cases item with
    | node n => cases n <;> simp [argumentPieces?, callVariables, used]
    | compound c => simp [argumentPieces?, callVariables, compoundPieces, used, used_natives]
  have arguments : (items.filterMap (argumentPieces? config)).flatMap used =
      items.flatMap callVariables := by
    rw [List.filterMap_eq_flatMap_toList, List.flatMap_assoc, funext each]
  simp [Statement.lines, used, arguments]

theorem scoped_call (result : Option Argument) (function : String) (items : List Item) :
    Scoped known ((Statement.call result function items).lines config) ↔
      ∀ v ∈ items.flatMap callVariables, v ∈ known := by
  rw [← @used_call config result function items]
  simp [Statement.lines, Scoped]

theorem declares_result (argument : Argument) (function : String) (items : List Item) :
    .native argument.ident ∈
      ((Statement.call (some argument) function items).lines config).flatMap declared := by
  simp [Statement.lines, resultPieces, declared]

theorem callVariables_item (item : Item) (option : MethodOption) (member : item ∈ option.items) :
    (∀ v ∈ callVariables item, v ∈ option.arguments.flatMap variablesOf) ↔
      ∀ node ∈ item.constituents, ∃ other ∈ option.arguments,
        other.isOutput = false ∧ other.ident = node.ident := by
  cases item with
  | compound c => simp only [callVariables, Item.constituents, List.forall_mem_map, native_mem_iff]
  | node n =>
    -- An item that is no output declares its own variable.
    refine iff_of_true ?_ (by simp [Item.constituents])
    intro v inCall
    have argument : n ∈ option.arguments :=
      List.mem_flatMap.mpr ⟨.node n, member, List.mem_singleton.mpr rfl⟩
    refine List.mem_flatMap.mpr ⟨n, argument, ?_⟩
    cases n <;> simp_all [callVariables, variablesOf, Node.ident]

/-- The variables of the call are declared in front of it if those of compounds are. -/
theorem callVariables_known_iff :
    (∀ v ∈ option.items.flatMap callVariables, v ∈ option.arguments.flatMap variablesOf) ↔
      CompoundsDeclared option := by
  simp only [List.mem_flatMap (l := option.items), forall_exists_index, and_imp]
  rw [forall_comm]
  exact forall_congr' fun item => by
    rw [forall_comm]
    exact forall_congr' fun member => callVariables_item item option member

/-- A single output is the result of the call. -/
theorem findSome?_output? {argument : Argument} (single : nodes.countP Node.isOutput ≤ 1)
    (member : .output argument ∈ nodes) : nodes.findSome? Node.output? = some argument := by
  induction nodes with
  | nil => cases member
  | cons node rest ih =>
    rcases List.mem_cons.mp member with rfl | later
    · rfl
    · have more : 0 < rest.countP Node.isOutput := List.countP_pos_iff.mpr ⟨_, later, rfl⟩
      have other : ¬ node.isOutput = true := by
        intro output
        rw [List.countP_cons_of_pos output] at single
        omega
      rw [List.countP_cons_of_neg other] at single
      have none : node.output? = none := by
        cases node <;> simp_all [Node.isOutput, Node.output?]
      rw [List.findSome?_cons_of_isNone (by rw [none]; rfl)]
      exact ih single later

/-- What is handed back is held by a variable of the argument, or it is the result. -/
theorem used_sendsOf {v : Variable} (uses : v ∈ (lines config (sendsOf node)).flatMap used) :
    v ∈ variablesOf node ∨ ∃ argument, node = .output argument ∧ v = .native argument.ident := by
  cases node <;>
    simp_all [sendsOf, Statement.lines, Handed.pieces, used, variablesOf, Node.ident]

theorem scoped_sends {function : String} (single : option.arguments.countP Node.isOutput ≤ 1)
    (declarations : ∀ v ∈ option.arguments.flatMap variablesOf, v ∈ known)
    (call : ∀ v ∈ ((Statement.call (option.arguments.findSome? Node.output?) function
      option.items).lines config).flatMap declared, v ∈ known) :
    Scoped known (lines config (option.arguments.flatMap sendsOf)) := by
  apply scoped_of_known
  intro v uses
  have assoc : (lines config (option.arguments.flatMap sendsOf)).flatMap used =
      option.arguments.flatMap fun node => (lines config (sendsOf node)).flatMap used := by
    simp only [lines, List.flatMap_assoc]
  rw [assoc] at uses
  obtain ⟨node, member, inSend⟩ := List.mem_flatMap.mp uses
  rcases used_sendsOf inSend with own | ⟨argument, rfl, rfl⟩
  · exact declarations v (List.mem_flatMap.mpr ⟨node, member, own⟩)
  · apply call
    rw [findSome?_output? single member]
    exact declares_result argument function option.items

theorem declared_fragments (texts : List String) :
    (lines config (texts.map .fragment)).flatMap declared = [] := by
  induction texts with
  | nil => rfl
  | cons text rest ih => simp [Statement.lines, declared, ih]

theorem scoped_fragments (texts : List String) :
    Scoped known (lines config (texts.map .fragment)) := by
  induction texts generalizing known with
  | nil => trivial
  | cons text rest ih => simp [Statement.lines, Scoped, used, declared, ih]

/-- The lines of a body use variables of their own exactly if guards compare arguments with
    sources that are received, and compounds are built from arguments that are declared. -/
theorem scoped_ofOption {function : String} {statements : List Statement}
    (made : ofOption function option = .ok statements) :
    Scoped [] (lines config statements) ↔ SourcesReceived option ∧ CompoundsDeclared option := by
  obtain ⟨single, resolved⟩ := sound_of_ofOption made
  have declarations : Scoped [] (lines config (option.arguments.flatMap (declarationsOf option))) ↔
      SourcesReceived option := by
    have inOrder := @scoped_declarations config option option.arguments [] resolved
    simp only [List.flatMap_nil, List.nil_append] at inOrder
    exact inOrder
  have call := (@scoped_call config (option.arguments.flatMap variablesOf)
    (option.arguments.findSome? Node.output?) function option.items).trans callVariables_known_iff
  have sends : Scoped (option.arguments.flatMap variablesOf ++
      ((Statement.call (option.arguments.findSome? Node.output?) function
        option.items).lines config).flatMap declared)
      (lines config (option.arguments.flatMap sendsOf)) :=
    scoped_sends single (fun v => List.mem_append_left _) (fun v => List.mem_append_right _)
  have blank : (Statement.blank.lines config).flatMap declared = [] := rfl
  have quiet : ∀ known, Scoped known (Statement.blank.lines config) := by
    intro known
    simp [Statement.lines, Scoped, used]
  rw [ofOption_eq made]
  simp only [lines_append, scoped_append, declarations, declared_declarations resolved, lines_cons,
    lines_nil, declared_fragments, scoped_fragments, blank, quiet, List.flatMap_append,
    List.append_nil, List.nil_append, call, sends, and_true]

/-! ## Bodies -/

theorem text_append_injective {x y : Ident} {suffix : String}
    (same : x.text ++ suffix = y.text ++ suffix) : x = y := by
  cases x
  cases y
  rw [Ident.mk.injEq]
  exact String.append_left_inj suffix |>.mp same

theorem accessName_injective {a b : Access} {x y : Ident} (same : accessName a x = accessName b y) :
    a = b ∧ x = y := by
  have reading : a = b := by
    have backwards := congrArg (fun name => name.toList.reverse) same
    cases a <;> cases b <;> simp [accessName, Access.name, String.toList_append] at backwards ⊢
  subst reading
  exact ⟨rfl, text_append_injective same⟩

/-- The last letter of the name of a variable, given that of the native ones. -/
def Variable.lastLetter (last : Char) : Variable → Char
  | container _ => 'r'
  | opened _ _ => 's'
  | native _ => last

/-- Variables are told apart by their names if the suffix of native variables ends in another
    letter than the names of containers do. -/
theorem name_injective {config : Config} {last : Char}
    (suffix : config.dataSuffix.toList.getLast? = some last) (notContainer : last ≠ 'r')
    (notAccess : last ≠ 's') : Function.Injective (Variable.name config) := by
  have ends : ∀ v : Variable, (v.name config).toList.getLast? = some (v.lastLetter last) := by
    intro v
    cases v with
    | container ident =>
      simp [Variable.name, Variable.lastLetter, containerName, String.toList_append]
    | opened access ident =>
      cases access <;>
        simp [Variable.name, Variable.lastLetter, accessName, Access.name, String.toList_append]
    | native ident =>
      simp [Variable.name, Variable.lastLetter, Config.dataName, String.toList_append, suffix]
  intro v w same
  have letters := congrArg (fun name => name.toList.getLast?) same
  simp only [ends, Option.some.injEq] at letters
  cases v with
  | container x =>
    cases w with
    | container y => exact congrArg Variable.container (text_append_injective same)
    | opened b y => simp [Variable.lastLetter] at letters
    | native y => exact absurd letters.symm notContainer
  | opened a x =>
    cases w with
    | container y => simp [Variable.lastLetter] at letters
    | opened b y =>
      obtain ⟨rfl, rfl⟩ := accessName_injective same
      rfl
    | native y => exact absurd letters.symm notAccess
  | native x =>
    cases w with
    | container y => exact absurd letters notContainer
    | opened b y => exact absurd letters notAccess
    | native y => exact congrArg Variable.native (text_append_injective same)

/-- The lines of a body have the text of its code. Each of them uses only variables that lines
    before it declare, if every source is received before an argument is compared with it and
    compounds are built from arguments that are no outputs; and only if, where variables are
    told apart by their names. -/
theorem body_definedBeforeUse {config : Config} {function : String} {option : MethodOption}
    {statements : List Statement} (made : ofOption function option = .ok statements) :
    lineTexts (code config statements) = (lines config statements).map (lineText config) ∧
      (SourcesReceived option ∧ CompoundsDeclared option →
        DefinedBeforeUse config (lines config statements)) ∧
      (Function.Injective (Variable.name config) →
        DefinedBeforeUse config (lines config statements) →
          SourcesReceived option ∧ CompoundsDeclared option) := by
  refine ⟨lineTexts_code config statements, ?_, ?_⟩
  · intro ordered
    exact definedBeforeUse_of_scoped config ((scoped_ofOption made).mpr ordered)
  · intro apart defined
    exact (scoped_ofOption made).mp (scoped_of_definedBeforeUse apart defined)

/-- An option whose buffer is compared with the input before it, and whose size is built from
    a parameter and the buffer that it allocates. -/
def warpOption : MethodOption where
  ident := ⟨"manual"⟩
  items := [.node (.input { ident := ⟨"src"⟩, nativeType := "cv::Mat" } false),
    .node (.refInput { ident := ⟨"dst"⟩, nativeType := "cv::Mat" } ⟨"src"⟩),
    .compound ⟨.size, [.parameter { argument := { ident := ⟨"w"⟩, nativeType := "int" } },
      .allocation { ident := ⟨"h"⟩, nativeType := "int" }]⟩,
    .node (.output { ident := ⟨"mean"⟩, nativeType := "double" })]

/-- In its body every variable is declared before it is used. -/
theorem warpOption_definedBeforeUse :
    ∃ statements, ofOption "cv::warp" warpOption = .ok statements ∧
      lineTexts (code .standard statements) =
        (lines .standard statements).map (lineText .standard) ∧
      DefinedBeforeUse .standard (lines .standard statements) := by
  obtain ⟨statements, made⟩ : ∃ statements, ofOption "cv::warp" warpOption = .ok statements :=
    ⟨_, rfl⟩
  have ordered : SourcesReceived warpOption ∧ CompoundsDeclared warpOption := by decide
  obtain ⟨texts, defined, -⟩ := @body_definedBeforeUse .standard _ _ _ made
  exact ⟨statements, made, texts, defined ordered⟩

/-- The names of variables are told apart under the standard conventions. -/
theorem name_injective_standard : Function.Injective (Variable.name .standard) :=
  @name_injective .standard 'a' (by decide) (by decide) (by decide)

/-- A method of one option, with a ref input in front of the input that it refers to. -/
def refFirstMethod : Method where
  ident := ⟨"blur"⟩
  options := [{
    ident := ⟨"manual"⟩
    items := [.node (.refInput { ident := ⟨"dst"⟩, nativeType := "cv::Mat" } ⟨"src"⟩),
      .node (.input { ident := ⟨"src"⟩, nativeType := "cv::Mat" } false)] }]

/-- Validity does not suffice: the guard of a ref input may stand in front of the line that
    receives the source. -/
theorem use_before_definition_accepted :
    ¬ ∀ (config : Config) (package : Package) (method : Method) (option : MethodOption)
        (statements : List Statement), Validation.problems package = [] →
      method ∈ package.methods → option ∈ method.options →
      ofOption method.nativeFunction option = .ok statements →
        DefinedBeforeUse config (lines config statements) := by
  intro sufficient
  let package : Package :=
    { ident := ⟨"vision"⟩, version := ⟨1, 0, 0⟩, methods := [refFirstMethod] }
  let option : MethodOption := refFirstMethod.options.head (by decide)
  have valid : Validation.problems package = [] := by decide
  obtain ⟨statements, made⟩ :
      ∃ statements, ofOption refFirstMethod.nativeFunction option = .ok statements := ⟨_, rfl⟩
  have defined := sufficient .standard package refFirstMethod option statements valid
    (List.mem_singleton.mpr rfl) (List.mem_singleton.mpr rfl) made
  have ordered := (scoped_ofOption made).mp
    (scoped_of_definedBeforeUse name_injective_standard defined)
  exact absurd ordered.1 (by decide)

end Body
end OperatorGen
