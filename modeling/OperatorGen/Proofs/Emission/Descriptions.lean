import Mathlib.Data.List.Infix
import Mathlib.Data.List.Nodup
import OperatorGen.Proofs.Emission.DescriptionText
import OperatorGen.Proofs.Emission.Parameters

/-!
# Descriptions of parameters

An operator describes its parameters to the runtime in two functions: those that are set before
the initialization in one, which goes through the parameters that were collected for the whole
method, and the others in one that goes through the arguments of each option. If arguments with
one spelling are the same node and no option uses a spelling twice, the two functions divide
the parameters between them, so that each is described once for every option that has it
(`rendered_descriptions`). Descriptions are counted in two ways, as blocks of steps and by the
step with which a parameter goes into the list, so that neither a second description nor another
entry in the list can be overlooked.
-/
namespace OperatorGen

/-! ## Nodes that are the same -/

/-- A rule without its fragment. -/
def Rule.bare : Rule → Rule
  | custom name _ => custom name []
  | rule => rule

theorem Rule.same_iff {a b : Rule} : a.same b = true ↔ a.bare = b.bare := by
  cases a <;> cases b <;> simp [same, bare]

/-- A parameter whose rules have no fragments. -/
def Parameter.bare (parameter : Parameter) : Parameter :=
  { parameter with rules := parameter.rules.map Rule.bare }

/-- Parameters are alike without the fragments of their rules exactly if they agree in all else
    and their rules are the same one by one. -/
theorem Parameter.bare_eq_bare_iff {a b : Parameter} :
    a.bare = b.bare ↔ a.argument = b.argument ∧ a.inPlace = b.inPlace ∧ a.isInit = b.isInit ∧
      a.default = b.default ∧ List.Forall₂ (fun r s => r.same s = true) a.rules b.rules := by
  have rules : a.rules.map Rule.bare = b.rules.map Rule.bare ↔
      List.Forall₂ (fun r s => r.same s = true) a.rules b.rules := by
    simp only [Rule.same_iff]
    rw [← List.forall₂_map_right_iff, ← List.forall₂_map_left_iff, List.forall₂_eq_eq_eq]
  rw [← rules, bare, bare, mk.injEq]

namespace Node

/-- A node whose rules have no fragments. -/
def bare : Node → Node
  | parameter p => parameter p.bare
  | numeric n => numeric { n with parameter := n.parameter.bare }
  | enumeration e => enumeration { e with parameter := e.parameter.bare }
  | node => node

/-- Nodes are the same if they agree in all but the fragments of their rules, since of custom
    rules only the names count. -/
def Same (a b : Node) : Prop :=
  a.bare = b.bare

instance (a b : Node) : Decidable (a.Same b) := inferInstanceAs (Decidable (_ = _))

theorem isParameter_bare (node : Node) : node.bare.isParameter = node.isParameter := by
  cases node <;> rfl

theorem isInit_bare (node : Node) : node.bare.isInit = node.isInit := by
  cases node <;> rfl

theorem ident_bare (node : Node) : node.bare.ident = node.ident := by
  cases node <;> rfl

theorem parameterLines_bare (config : Config) (node : Node) :
    Setup.parameterLines config node.bare = Setup.parameterLines config node := by
  cases node <;> rfl

namespace Same

variable {a b : Node}

theorem isParameter (same : a.Same b) : a.isParameter = b.isParameter := by
  rw [← isParameter_bare a, ← isParameter_bare b, same]

theorem isInit (same : a.Same b) : a.isInit = b.isInit := by
  rw [← isInit_bare a, ← isInit_bare b, same]

theorem ident (same : a.Same b) : a.ident = b.ident := by
  rw [← ident_bare a, ← ident_bare b, same]

theorem parameterLines (same : a.Same b) (config : Config) :
    Setup.parameterLines config a = Setup.parameterLines config b := by
  rw [← parameterLines_bare config a, ← parameterLines_bare config b, same]

end Same

end Node

/-! ## Occurrences of a block -/

namespace Step

/-- How often a block of steps stands in steps. -/
def occurrences (block steps : List Step) : Nat :=
  steps.tails.countP (block <+: ·)

theorem occurrences_pos {block steps : List Step} (inside : block <:+: steps) :
    0 < occurrences block steps := by
  obtain ⟨rest, begins, ends⟩ := List.infix_iff_prefix_suffix.mp inside
  exact List.countP_pos_iff.mpr
    ⟨rest, (List.mem_tails rest steps).mpr ends, decide_eq_true begins⟩

/-- A step occurs at a distance from as many places as there are occurrences behind that
    distance. -/
theorem countP_tails_getElem? (step : Step) (steps : List Step) (distance : Nat) :
    steps.tails.countP (fun rest => rest[distance]? = some step) =
      (steps.drop distance).count step := by
  induction steps generalizing distance with
  | nil => simp
  | cons first rest ih =>
    rw [List.tails_cons, List.countP_cons, ih]
    cases distance with
    | zero => simp [List.count_cons]
    | succ distance =>
      by_cases bound : distance < rest.length
      · rw [List.drop_succ_cons, List.drop_eq_getElem_cons bound, List.count_cons]
        simp [bound]
      · have beyond : rest.length ≤ distance := Nat.le_of_not_lt bound
        rw [List.drop_succ_cons, List.drop_eq_nil_of_le beyond,
          List.drop_eq_nil_of_le (Nat.le_succ_of_le beyond)]
        simp [beyond]

/-- A block occurs at most as often as any of its steps. -/
theorem occurrences_le_count {block : List Step} {step : Step} (member : step ∈ block)
    (steps : List Step) :
    occurrences block steps ≤ steps.count step := by
  obtain ⟨distance, bound, rfl⟩ := List.mem_iff_getElem.mp member
  have found : occurrences block steps ≤
      steps.tails.countP fun rest => rest[distance]? = some block[distance] := by
    refine List.countP_mono_left fun rest _ begins => ?_
    obtain ⟨behind, rfl⟩ := of_decide_eq_true begins
    exact decide_eq_true (List.getElem?_append_left bound ▸ List.getElem?_eq_getElem bound)
  rw [countP_tails_getElem?] at found
  exact Nat.le_trans found ((List.drop_sublist distance steps).count_le _)

end Step

/-! ## Entries in the list of parameters -/

namespace Setup

theorem pushStep_inj {a b : Ident} : pushStep a = pushStep b ↔ a = b := by
  refine ⟨fun same => ?_, congrArg pushStep⟩
  have texts := Step.line.inj same
  rw [String.append_left_inj, String.append_right_inj, String.append_left_inj] at texts
  cases a
  cases b
  exact congrArg Ident.mk ((String.append_right_inj _).mp texts)

variable {config : Config} {ident : Ident}

/-- A line that begins like no entry in the list is none. -/
theorem ne_pushStep {text : String} (other : text.toList.head? ≠ some 'p') :
    .line text ≠ pushStep ident := by
  intro same
  refine other ?_
  rw [Step.line.inj same, String.append_assoc, String.toList_append, List.head?_append]
  rfl

theorem blank_ne_pushStep : .line "" ≠ pushStep ident :=
  ne_pushStep (by simp)

theorem holder_ne_pushStep (parameter : Parameter) (rest : String) :
    .line (parameter.argument.ident.member ++ rest) ≠ pushStep ident :=
  ne_pushStep (by simp [Ident.member])

/-- In the description of a parameter there is one entry in the list, which is its own. -/
theorem count_descriptionLines {parameter : Parameter} {made : String} {details : List Step}
    (detailed : pushStep ident ∉ details) :
    (descriptionLines config parameter made details).count (pushStep ident) =
      [parameter.argument.ident].count ident := by
  have own : [pushStep parameter.argument.ident, .line ""].count (pushStep ident) =
      [parameter.argument.ident].count ident := by
    rw [List.count_cons, List.count_cons_of_ne blank_ne_pushStep, List.count_cons]
    simp [pushStep_inj]
  rw [descriptionLines, List.count_append, List.count_append, own,
    List.count_eq_zero_of_not_mem detailed]
  simp only [String.append_assoc]
  rw [List.count_cons_of_ne (holder_ne_pushStep _ _),
    List.count_cons_of_ne (holder_ne_pushStep _ _),
    List.count_cons_of_ne (holder_ne_pushStep _ _), List.count_nil, Nat.zero_add]

theorem pushStep_not_mem_boundLines (parameter : Parameter) (setter : String)
    (bound : Option String) : pushStep ident ∉ boundLines config parameter setter bound := by
  intro member
  obtain ⟨value, -, same⟩ := List.mem_map.mp member
  simp only [String.append_assoc] at same
  exact holder_ne_pushStep parameter _ same

theorem addLine_ne_pushStep (parameter : Parameter) (value literal : String) :
    addLine config parameter value literal ≠ pushStep ident := by
  simp only [addLine, String.append_assoc]
  exact holder_ne_pushStep parameter _

/-- The description of a parameter has one entry in the list. -/
theorem count_parameterLines {node : Node} (parameter : node.isParameter = true) :
    (parameterLines config node).count (pushStep ident) = [node.ident].count ident := by
  cases node with
  | parameter p => exact count_descriptionLines List.not_mem_nil
  | numeric n =>
    refine count_descriptionLines ?_
    simp only [List.mem_append, not_or]
    exact ⟨⟨pushStep_not_mem_boundLines _ _ _, pushStep_not_mem_boundLines _ _ _⟩,
      pushStep_not_mem_boundLines _ _ _⟩
  | enumeration e =>
    refine count_descriptionLines fun member => ?_
    obtain ⟨index, bound, same⟩ := List.mem_mapIdx.mp member
    exact addLine_ne_pushStep _ _ _ same
  | _ => cases parameter

/-- Descriptions of parameters have one entry in the list for each of them. -/
theorem count_flatMap_parameterLines {nodes : List Node}
    (parameters : ∀ node ∈ nodes, node.isParameter = true) :
    (nodes.flatMap (parameterLines config)).count (pushStep ident) =
      (nodes.map Node.ident).count ident := by
  induction nodes with
  | nil => rfl
  | cons node rest ih =>
    rw [List.forall_mem_cons] at parameters
    rw [List.flatMap_cons, List.count_append, count_parameterLines parameters.1, ih parameters.2,
      ← List.count_append, List.map_cons, List.singleton_append]

/-- Descriptions of nodes have one entry in the list for each node that is described. -/
theorem count_flatMap_describeNode (isInit : Bool) (nodes : List Node) :
    (nodes.flatMap (describeNode config isInit)).count (pushStep ident) =
      ((nodes.filter (Node.isDescribed isInit)).map Node.ident).count ident := by
  rw [flatMap_describeNode, count_flatMap_parameterLines]
  exact fun node kept => (Node.isDescribed_iff.mp (List.mem_filter.mp kept).2).1

/-- Steps with as many entries have the same entries. -/
theorem push_mem_congr {first second : List Step}
    (same : first.count (pushStep ident) = second.count (pushStep ident)) :
    pushStep ident ∈ first ↔ pushStep ident ∈ second := by
  rw [← List.count_pos_iff, same, List.count_pos_iff]

theorem count_nested (steps : List Step) :
    (Step.nested steps).count (pushStep ident) = steps.count (pushStep ident) := by
  have deeper : Step.indent ≠ pushStep ident := Step.noConfusion
  have back : Step.dedent ≠ pushStep ident := Step.noConfusion
  simp [Step.nested, List.count_cons_of_ne, deeper, back]

theorem count_scope (steps : List Step) :
    (Step.scope steps).count (pushStep ident) = steps.count (pushStep ident) := by
  have opening : .line "\x7b" ≠ pushStep ident := ne_pushStep (by decide)
  have closing : .line "\x7d" ≠ pushStep ident := ne_pushStep (by decide)
  simp [Step.scope, count_nested, List.count_cons_of_ne, opening, closing]

/-- A function that returns a list has the entries that are put into it, and no others. -/
theorem count_listCode {element list : String} {entries : List Step} :
    (Emission.listCode config element list entries).count (pushStep ident) =
      entries.count (pushStep ident) := by
  have declaration (rest : String) : .line ("std::vector<const " ++ rest) ≠ pushStep ident :=
    ne_pushStep (by simp)
  have result (rest : String) : .line ("return " ++ rest) ≠ pushStep ident :=
    ne_pushStep (by simp)
  simp [Emission.listCode, String.append_assoc, List.count_cons_of_ne, declaration, result,
    blank_ne_pushStep]

/-- An empty line behind a switch is no entry. -/
theorem count_append_blank {steps : List Step} {choice : Prop} [Decidable choice] :
    (steps ++ if choice then [Step.line ""] else []).count (pushStep ident) =
      steps.count (pushStep ident) := by
  rw [List.count_append]
  split
  · rw [List.count_cons_of_ne blank_ne_pushStep, List.count_nil, Nat.add_zero]
  · rw [List.count_nil, Nat.add_zero]

theorem push_mem_optionCase {option : MethodOption} {body : List Step} :
    pushStep ident ∈ optionCase option body ↔ pushStep ident ∈ body := by
  have label : .line ("case(" ++ (option.ident.constant ++ "):")) ≠ pushStep ident :=
    ne_pushStep (by simp)
  have leaves : .line "break;" ≠ pushStep ident := ne_pushStep (by decide)
  refine push_mem_congr ?_
  rw [optionCase, List.count_append, count_nested, List.count_append, count_scope]
  simp [String.append_assoc, List.count_cons_of_ne, label, leaves]

/-- What is emitted for the options of a method has no entries but those of its options. -/
theorem exists_option_of_push {ids : DataIds} {method : Method} {code : MethodOption → List Step}
    (member : pushStep ident ∈ forEachOption ids method code) :
    ∃ option ∈ method.options, pushStep ident ∈ code option := by
  have switch : pushStep ident ≠ .line ("switch(int(" ++ dataFlow.member ++ "))") :=
    (ne_pushStep (by decide)).symm
  have opening : pushStep ident ≠ .line "\x7b" := (ne_pushStep (by decide)).symm
  have closing : pushStep ident ≠ .line "\x7d" := (ne_pushStep (by decide)).symm
  rw [forEachOption] at member
  split at member
  · simpa [dataFlowSwitch, push_mem_optionCase, switch, opening, closing] using member
  · split at member
    · next option first => exact ⟨option, List.mem_of_head? first, member⟩
    · cases member

/-- Descriptions of nodes with distinct spellings have no entry twice. -/
theorem count_flatMap_describeNode_le_one {nodes : List Node}
    (distinct : (nodes.map Node.ident).Nodup) (isInit : Bool) :
    (nodes.flatMap (describeNode config isInit)).count (pushStep ident) ≤ 1 := by
  rw [count_flatMap_describeNode]
  exact List.nodup_iff_count.mp (distinct.sublist (List.filter_sublist.map _)) ident

theorem exists_node_of_push {isInit : Bool} {nodes : List Node}
    (member : pushStep ident ∈ nodes.flatMap (describeNode config isInit)) :
    ∃ node ∈ nodes, node.isParameter = true ∧ node.isInit = isInit ∧ node.ident = ident := by
  rw [← List.count_pos_iff, count_flatMap_describeNode, List.count_pos_iff] at member
  obtain ⟨node, described, spelled⟩ := List.mem_map.mp member
  obtain ⟨inNodes, asked⟩ := List.mem_filter.mp described
  obtain ⟨parameter, initial⟩ := Node.isDescribed_iff.mp asked
  exact ⟨node, inNodes, parameter, initial, spelled⟩

/-! ## Descriptions -/

/-- How often steps describe a parameter: so often its description stands in them, and so often
    they put the variable of its description into the list. -/
structure DescribesTimes (config : Config) (node : Node) (times : Nat) (steps : List Step) :
    Prop where
  blocks : Step.occurrences (parameterLines config node) steps = times
  entries : steps.count (pushStep node.ident) = times

section

variable {node : Node} {steps : List Step} (parameter : node.isParameter = true)
include parameter

theorem push_mem_parameterLines : pushStep node.ident ∈ parameterLines config node := by
  rw [← List.count_pos_iff, count_parameterLines parameter, List.count_pos_iff]
  exact List.mem_singleton_self _

theorem describes_none (none : pushStep node.ident ∉ steps) :
    DescribesTimes config node 0 steps := by
  have entries : steps.count (pushStep node.ident) = 0 := List.count_eq_zero_of_not_mem none
  have few : Step.occurrences (parameterLines config node) steps ≤ 0 :=
    entries ▸ Step.occurrences_le_count (push_mem_parameterLines parameter) steps
  exact ⟨Nat.le_zero.mp few, entries⟩

theorem describes_once (inside : parameterLines config node <:+: steps)
    (once : steps.count (pushStep node.ident) ≤ 1) : DescribesTimes config node 1 steps := by
  have some : 0 < Step.occurrences (parameterLines config node) steps :=
    Step.occurrences_pos inside
  have few : Step.occurrences (parameterLines config node) steps ≤
      steps.count (pushStep node.ident) :=
    Step.occurrences_le_count (push_mem_parameterLines parameter) steps
  exact ⟨by omega, by omega⟩

end

end Setup

/-- Arguments of a method with one spelling are the same node, and no option uses a spelling
    twice. -/
structure Method.SpellsApart (method : Method) : Prop where
  same : ∀ a ∈ method.arguments, ∀ b ∈ method.arguments, a.ident = b.ident → a.Same b
  distinct : ∀ option ∈ method.options, (option.arguments.map Node.ident).Nodup

namespace DataIds

variable {config : Config} {method : Method} {ids : DataIds} {node : Node}

/-- Parameters of an option are described once among those that are set after the
    initialization. -/
theorem describes_later {option : MethodOption}
    (distinct : (option.arguments.map Node.ident).Nodup) (member : node ∈ option.arguments)
    (parameter : node.isParameter = true) (later : node.isInit = false) :
    Setup.DescribesTimes config node 1 (Setup.laterDescriptions config option) := by
  refine Setup.describes_once parameter ?_ ?_
  · exact Setup.parameterLines_infix member parameter later
  · exact Setup.count_flatMap_describeNode_le_one distinct false

/-- If no option sets a spelling after the initialization, the other function does not describe
    it. -/
theorem describes_not_later (parameter : node.isParameter = true)
    (none : ∀ n ∈ method.arguments, n.isParameter = true → n.ident = node.ident →
      n.isInit = true) :
    Setup.DescribesTimes config node 0 (Emission.listCode config "Parameter" "parameters"
      (Setup.forEachOption ids method (Setup.laterDescriptions config) ++
        if SelectsOption method then [.line ""] else [])) := by
  refine Setup.describes_none parameter fun entry => ?_
  rw [Setup.push_mem_congr Setup.count_listCode,
    Setup.push_mem_congr Setup.count_append_blank] at entry
  obtain ⟨option, inOptions, inOption⟩ := Setup.exists_option_of_push entry
  obtain ⟨n, member, isParameter, later, spelled⟩ := Setup.exists_node_of_push inOption
  have initial := none n (List.mem_flatMap.mpr ⟨option, inOptions, member⟩) isParameter spelled
  rw [later] at initial
  cases initial

section

variable (collected : collect method = .ok ids)
include collected

section

variable (apart : method.SpellsApart) (member : node ∈ method.arguments)
  (parameter : node.isParameter = true)
include apart member parameter

/-- A parameter is kept, or a node that is the same. -/
theorem exists_same : ∃ kept ∈ ids.parameters, kept.Same node := by
  obtain ⟨kept, inIds, inMethod, spelled⟩ := exists_kept collected member parameter
    fun n inMethod spelled =>
      (apart.same n inMethod node member spelled).isParameter.trans parameter
  exact ⟨kept, inIds, apart.same kept inMethod node member spelled⟩

/-- A node that is kept is the same as any parameter with its spelling. -/
theorem same_of_kept {kept : Node} (inIds : kept ∈ ids.parameters)
    (spelled : kept.ident = node.ident) : kept.Same node := by
  obtain ⟨other, otherInIds, same⟩ := exists_same collected apart member parameter
  have distinct := (orderly_of_collect collected).nodup_parameters
  obtain rfl : kept = other :=
    List.inj_on_of_nodup_map distinct inIds otherInIds (spelled.trans same.ident.symm)
  exact same

end

/-- A parameter that is set before the initialization is described once among those. -/
theorem describes_initial {kept : Node} (inIds : kept ∈ ids.parameters) (same : kept.Same node)
    (parameter : node.isParameter = true) (initial : node.isInit = true) :
    Setup.DescribesTimes config node 1
      (Emission.listCode config "Parameter" "parameters" (Setup.initDescriptions config ids)) := by
  refine Setup.describes_once parameter ?_ ?_
  · have inside := @Setup.parameterLines_infix config true kept _ inIds
      (same.isParameter.trans parameter) (same.isInit.trans initial)
    rw [same.parameterLines] at inside
    exact inside.trans (Emission.infix_listCode config _ _ _)
  · rw [Setup.count_listCode]
    exact Setup.count_flatMap_describeNode_le_one
      (orderly_of_collect collected).nodup_parameters true

/-- A parameter that is set after the initialization is not described among those that are set
    before. -/
theorem describes_not_initial (apart : method.SpellsApart) (member : node ∈ method.arguments)
    (parameter : node.isParameter = true) (later : node.isInit = false) :
    Setup.DescribesTimes config node 0
      (Emission.listCode config "Parameter" "parameters" (Setup.initDescriptions config ids)) := by
  refine Setup.describes_none parameter fun entry => ?_
  rw [Setup.push_mem_congr Setup.count_listCode] at entry
  obtain ⟨kept, inIds, -, initial, spelled⟩ := Setup.exists_node_of_push entry
  have same := same_of_kept collected apart member parameter inIds spelled
  rw [same.isInit, later] at initial
  cases initial

/-- With a choice of options the data flow is kept, and no argument has its spelling. -/
theorem dataFlow_kept (choice : 1 < method.options.length) :
    .enumeration (dataFlowParameter method.options) ∈ ids.parameters ∧
      ∀ n ∈ method.arguments, n.isParameter = true → n.ident ≠ dataFlow := by
  rcases collect_cases collected with ⟨few, -⟩ | ⟨-, free, rfl⟩
  · exact absurd choice (Nat.not_lt_of_le few)
  · refine ⟨?_, fun n member parameter spelled => free ?_⟩
    · rw [add_new rfl free]
      exact List.mem_append_right _ (List.mem_singleton_self _)
    · obtain ⟨option, inOptions, inOption⟩ := List.mem_flatMap.mp member
      exact mem_ids_declared.mpr
        ⟨option, inOptions, n, inOption, Node.hasId_of_isParameter parameter, spelled⟩

end

end DataIds

/-! ## Files -/

namespace Emission

/-- Two functions divide the parameters of a method between them: those that are set before the
    initialization, the data flow included, are described once by the first function and never
    by the second, and those of an option that are set after it once in the part of that option
    and never by the first. -/
structure DividesParameters (config : Config) (method : Method) (first second : List Step)
    (part : MethodOption → List Step) : Prop where
  initial : ∀ node ∈ method.arguments, node.isParameter = true → node.isInit = true →
    Setup.DescribesTimes config node 1 first ∧ Setup.DescribesTimes config node 0 second
  later : ∀ option ∈ method.options, ∀ node ∈ option.arguments,
    node.isParameter = true → node.isInit = false →
      Setup.DescribesTimes config node 1 (part option) ∧ Setup.DescribesTimes config node 0 first
  dataFlow : 1 < method.options.length →
    Setup.DescribesTimes config (.enumeration (DataIds.dataFlowParameter method.options)) 1 first ∧
    Setup.DescribesTimes config (.enumeration (DataIds.dataFlowParameter method.options)) 0 second

/-- A file has two functions that list parameters: the first lists those that are set before the
    initialization, and the second has a part for each option. They divide the parameters of the
    method between them. -/
structure FileDescribes (config : Config) (method : Method) (first second : List Step)
    (part : MethodOption → List Step) (steps : List Step) : Prop where
  initial : HasFunction
    (listSignature config method.ident.className "setupInitParameters" "Parameter") first steps
  later : HasFunction
    (listSignature config method.ident.className "setupParameters" "Parameter") second steps
  options : ∃ selected, Setup.Selects (SelectsOption method) method part selected ∧
    second = listCode config "Parameter" "parameters"
      (selected ++ if SelectsOption method then [.line ""] else [])
  divides : DividesParameters config method first second part

variable {config : Config} {package : Package} {method : Method} {ids : DataIds}

theorem dividesParameters_of_collect (apart : method.SpellsApart)
    (collected : DataIds.collect method = .ok ids) :
    DividesParameters config method
      (listCode config "Parameter" "parameters" (Setup.initDescriptions config ids))
      (listCode config "Parameter" "parameters"
        (Setup.forEachOption ids method (Setup.laterDescriptions config) ++
          if SelectsOption method then [.line ""] else []))
      (Setup.laterDescriptions config) := by
  constructor
  case initial =>
    intro node member parameter initial
    obtain ⟨kept, inIds, same⟩ := DataIds.exists_same collected apart member parameter
    refine ⟨DataIds.describes_initial collected inIds same parameter initial,
      DataIds.describes_not_later parameter fun n inMethod _ spelled => ?_⟩
    exact (apart.same n inMethod node member spelled).isInit.trans initial
  case later =>
    intro option inOptions node inOption parameter later
    have member : node ∈ method.arguments := List.mem_flatMap.mpr ⟨option, inOptions, inOption⟩
    exact ⟨DataIds.describes_later (apart.distinct option inOptions) inOption parameter later,
      DataIds.describes_not_initial collected apart member parameter later⟩
  case dataFlow =>
    intro choice
    obtain ⟨kept, free⟩ := DataIds.dataFlow_kept collected choice
    refine ⟨DataIds.describes_initial collected kept rfl rfl rfl,
      DataIds.describes_not_later rfl fun n inMethod parameter spelled => ?_⟩
    exact absurd spelled (free n inMethod parameter)

/-- In a file of a method that uses a spelling for one node only, and in no option twice, every
    parameter of an option is described once for that option: the function that lists the
    parameters to set before the initialization and the one that lists the others, by option,
    divide them between them. -/
theorem rendered_descriptions {text : String} (apart : method.SpellsApart)
    (rendered : renderMethod config package method = .ok text) :
    ∃ first second part steps, text = Document.render config.indentWidth steps ∧
      FileDescribes config method first second part steps := by
  obtain ⟨ids, executed, collected, -, same⟩ := exists_partsOf rendered
  have decides := DataIds.hasDataFlow_iff collected
  exact ⟨_, _, _, _, same,
    { initial := listsAll_fileSteps
      later := listsAll_parameters collected
      options := ⟨_, Setup.selects_forEachOption decides, rfl⟩
      divides := dividesParameters_of_collect apart collected }⟩

/-- A parameter that is set before the initialization. -/
def sigmaNode : Node :=
  .parameter
    { argument := { ident := ⟨"sigma"⟩, nativeType := "double", wrapperType := "Float64" }
      isInit := true }

/-- An option that has this parameter and one that is set after the initialization. -/
def sigmaOption : MethodOption where
  ident := ⟨"manual"⟩
  items := [.node sigmaNode, .node numericNode]

/-- A method with that option and another one, both of which have the first parameter. -/
def sigmaMethod : Method where
  ident := ⟨"blur"⟩
  options := [sigmaOption, { ident := ⟨"allocate"⟩, items := [.node sigmaNode] }]

/-- The package of that method. -/
def sigmaPackage : Package where
  ident := ⟨"vision"⟩
  version := ⟨1, 0, 0⟩
  methods := [sigmaMethod]

/-- Both options have `sigma`, which is described once before the initialization and never after
    it; `ksize` is described once for the first option, and never before the initialization. -/
theorem sigmaMethod_descriptions :
    sigmaMethod.SpellsApart ∧
      ∃ text, renderMethod .standard sigmaPackage sigmaMethod = .ok text ∧
        ∃ first second part steps, text = Document.render Config.standard.indentWidth steps ∧
          FileDescribes .standard sigmaMethod first second part steps ∧
          Setup.DescribesTimes .standard sigmaNode 1 first ∧
          Setup.DescribesTimes .standard sigmaNode 0 second ∧
          Setup.DescribesTimes .standard numericNode 1 (part sigmaOption) ∧
          Setup.DescribesTimes .standard numericNode 0 first := by
  have apart : sigmaMethod.SpellsApart := ⟨by decide, by decide⟩
  obtain ⟨text, rendered⟩ : ∃ text, renderMethod .standard sigmaPackage sigmaMethod = .ok text :=
    ⟨_, rfl⟩
  obtain ⟨first, second, part, steps, same, describes⟩ := rendered_descriptions apart rendered
  obtain ⟨once, never⟩ := describes.divides.initial sigmaNode (by decide) rfl rfl
  obtain ⟨onceLater, notBefore⟩ :=
    describes.divides.later sigmaOption (by decide) numericNode (by decide) rfl rfl
  exact ⟨apart, text, rendered, first, second, part, steps, same, describes, once, never,
    onceLater, notBefore⟩

end Emission
end OperatorGen
