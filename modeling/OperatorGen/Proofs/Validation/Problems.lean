import OperatorGen.Validation

/-!
# The problems that validation reports

Validation goes through a package once and remembers the enumerators that it has seen. Here
its rules are told one by one, without the order in which they are checked: a package has
`sites` at which a rule applies, and a site may violate its rule (`Violates`), which is one
problem. What is reported is one problem for each violation, in the order of the sites
(`reported_problems`). An enumerator belongs to the first argument of the method that has it
(`Method.owner?`), and what has been seen tells the owner among the arguments so far
(`Tells`).
-/
namespace OperatorGen

/-- The first spelling among some that has an enumerator. -/
def Ident.owner? (constant : String) (idents : List Ident) : Option Ident :=
  idents.find? fun ident => ident.constant = constant

/-- The spelling of the first argument of a method that has an enumerator. -/
def Method.owner? (method : Method) (constant : String) : Option Ident :=
  Ident.owner? constant (method.arguments.map Node.ident)

/-- Both texts are literals, and the first is the greater one. -/
def Literal.Exceeds (first second : String) : Prop :=
  ∃ high low, Literal.read? first = some high ∧ Literal.read? second = some low ∧
    high.toBinary64.exceeds low.toBinary64 = true

namespace Validation

/-! ## Rules -/

/-- What a rule of validity applies to. -/
inductive Site where
  | spelling (role : Role) (ident : Ident)
  /-- The return values of an option. -/
  | outputs (scope : Scope) (option : MethodOption)
  /-- The constituents of a size. -/
  | size (scope : Scope) (constituents : List Node)
  /-- The enumerator of an argument of a method. -/
  | enumerator (scope : Scope) (method : Method) (ident : Ident)
  /-- The target of a ref input of an option. -/
  | target (scope : Scope) (option : MethodOption) (argument : Argument) (target : Ident)
  | bounds (scope : Scope) (numeric : NumericParameter)
  /-- The values that an enum parameter can have. -/
  | values (scope : Scope) (enumeration : EnumParameter)

/-- A site violates its rule, which is a problem. -/
inductive Violates : Site → Problem → Prop
  | spelling {role : Role} {ident : Ident} (invalid : ident.isValid = false) :
    Violates (.spelling role ident) (.invalidIdent role ident)
  | outputs {scope : Scope} {option : MethodOption}
      (several : 1 < option.arguments.countP Node.isOutput) :
    Violates (.outputs scope option)
      (.severalOutputs scope (option.arguments.countP Node.isOutput))
  | size {scope : Scope} {constituents : List Node} (wrong : constituents.length ≠ 2) :
    Violates (.size scope constituents)
      (.sizeArity scope (Compound.label ⟨.size, constituents⟩) constituents.length)
  | enumerator {scope : Scope} {method : Method} {ident owner : Ident}
      (owned : method.owner? ident.constant = some owner) (differs : owner ≠ ident) :
    Violates (.enumerator scope method ident) (.collision scope owner ident)
  | target {scope : Scope} {option : MethodOption} {argument : Argument} {target : Ident}
      (unresolved : option.resolve? argument target = none) :
    Violates (.target scope option argument target)
      (.unknownReference scope argument.ident target)
  | bounds {scope : Scope} {numeric : NumericParameter} {min max : String}
      (lower : numeric.min = some min) (upper : numeric.max = some max)
      (inverted : Literal.Exceeds min max) :
    Violates (.bounds scope numeric)
      (.invertedBounds scope numeric.parameter.argument.ident min max)
  | values {scope : Scope} {enumeration : EnumParameter} (none : enumeration.descriptions = []) :
    Violates (.values scope enumeration)
      (.noDescriptions scope enumeration.parameter.argument.ident)

/-- A violation is one problem. -/
theorem Violates.unique {site : Site} {problem other : Problem}
    (first : Violates site problem) (second : Violates site other) : problem = other := by
  cases first with
  | enumerator owned differs =>
    cases second with
    | enumerator owned' differs' =>
      rw [owned] at owned'
      cases owned'
      rfl
  | bounds lower upper inverted =>
    cases second with
    | bounds lower' upper' inverted' =>
      rw [lower] at lower'
      rw [upper] at upper'
      cases lower'
      cases upper'
      rfl
  | _ => cases second; rfl

/-! ## Sites in order -/

/-- What is particular to the kind of a node. -/
def kindSites (scope : Scope) (option : MethodOption) : Node → List Site
  | .refInput argument target => [.target scope option argument target]
  | .numeric n => [.bounds scope n]
  | .enumeration e =>
    .values scope e :: e.descriptions.map fun description =>
      .spelling .enumDescription description.ident
  | _ => []

def nodeSites (scope : Scope) (method : Method) (option : MethodOption) (node : Node) :
    List Site :=
  [.spelling .argument node.ident, .enumerator scope method node.ident] ++
    kindSites scope option node

def itemSites (scope : Scope) : Item → List Site
  | .compound ⟨.size, constituents⟩ => [.size scope constituents]
  | _ => []

/-- The sites of an option: its spelling, its outputs, its sizes, then its arguments. -/
def optionSites (method : Method) (option : MethodOption) : List Site :=
  let scope : Scope := ⟨method.ident, option.ident⟩
  [.spelling .option option.ident, .outputs scope option] ++
    option.items.flatMap (itemSites scope) ++
    option.arguments.flatMap (nodeSites scope method option)

def methodSites (method : Method) : List Site :=
  .spelling .method method.ident :: method.options.flatMap (optionSites method)

/-- All sites of a package in the order of a walk. -/
def sites (package : Package) : List Site :=
  .spelling .package package.ident :: package.methods.flatMap methodSites

/-! ## Reports -/

/-- One problem for each site that violates its rule, in the order of the sites. -/
inductive Reported : List Site → List Problem → Prop
  | nil : Reported [] []
  | passed {site : Site} {sites : List Site} {problems : List Problem}
      (complies : ∀ problem, ¬ Violates site problem) (others : Reported sites problems) :
    Reported (site :: sites) problems
  | violated {site : Site} {problem : Problem} {sites : List Site} {problems : List Problem}
      (violates : Violates site problem) (others : Reported sites problems) :
    Reported (site :: sites) (problem :: problems)

namespace Reported

variable {site : Site} {first second : List Site} {problem : Problem}
  {problems others : List Problem}

/-- The sites alone decide what is reported. -/
theorem unique (one : Reported first problems) (other : Reported first others) :
    problems = others := by
  induction one generalizing others with
  | nil =>
    cases other
    rfl
  | passed complies _ ih =>
    cases other with
    | passed _ rest => exact ih rest
    | violated violates rest => exact absurd violates (complies _)
  | violated violates _ ih =>
    cases other with
    | passed complies rest => exact absurd violates (complies _)
    | violated violates' rest => rw [violates.unique violates', ih rest]

theorem of_violates (violates : Violates site problem) : Reported [site] [problem] :=
  .violated violates .nil

theorem of_complies (complies : ∀ problem, ¬ Violates site problem) : Reported [site] [] :=
  .passed complies .nil

theorem append (front : Reported first problems) (back : Reported second others) :
    Reported (first ++ second) (problems ++ others) := by
  induction front with
  | nil => exact back
  | passed complies _ ih => exact .passed complies ih
  | violated violates _ ih => exact .violated violates ih

theorem flatMap {α : Type} {list : List α} {sitesOf : α → List Site}
    {problemsOf : α → List Problem}
    (each : ∀ x ∈ list, Reported (sitesOf x) (problemsOf x)) :
    Reported (list.flatMap sitesOf) (list.flatMap problemsOf) := by
  induction list with
  | nil => exact .nil
  | cons x rest ih =>
    rw [List.flatMap_cons, List.flatMap_cons]
    exact (each x (by simp)).append (ih fun y member => each y (by simp [member]))

/-- What is reported violates the rule of a site. -/
theorem exists_violated (reported : Reported first problems) (member : problem ∈ problems) :
    ∃ site ∈ first, Violates site problem := by
  induction reported with
  | nil => cases member
  | passed _ _ ih =>
    obtain ⟨site, inRest, violates⟩ := ih member
    exact ⟨site, List.mem_cons_of_mem _ inRest, violates⟩
  | violated violates _ ih =>
    rcases List.mem_cons.mp member with rfl | later
    · exact ⟨_, List.mem_cons_self, violates⟩
    · obtain ⟨site, inRest, violates⟩ := ih later
      exact ⟨site, List.mem_cons_of_mem _ inRest, violates⟩

/-- A violation of the rule of a site is reported. -/
theorem mem_of_violates (reported : Reported first problems) (member : site ∈ first)
    (violates : Violates site problem) : problem ∈ problems := by
  induction reported with
  | nil => cases member
  | passed complies _ ih =>
    rcases List.mem_cons.mp member with rfl | later
    · exact absurd violates (complies problem)
    · exact ih later
  | violated violates' _ ih =>
    rcases List.mem_cons.mp member with rfl | later
    · rw [violates.unique violates']
      exact List.mem_cons_self
    · exact List.mem_cons_of_mem _ (ih later)

/-- Nothing is reported exactly if every site complies with its rule. -/
theorem nil_iff_complies :
    Reported first [] ↔ ∀ site ∈ first, ∀ problem, ¬ Violates site problem := by
  induction first with
  | nil => exact ⟨fun _ site member => (List.not_mem_nil member).elim, fun _ => .nil⟩
  | cons site rest ih =>
    rw [List.forall_mem_cons, ← ih]
    constructor
    · intro reported
      cases reported with
      | passed complies others => exact ⟨complies, others⟩
    · rintro ⟨complies, others⟩
      exact .passed complies others

end Reported

/-! ## Checks of single sites -/

theorem reported_checkIdent (role : Role) (ident : Ident) :
    Reported [.spelling role ident] (checkIdent role ident) := by
  unfold checkIdent
  split
  · next valid =>
    refine .of_complies fun problem violates => ?_
    cases violates with
    | spelling invalid => simp [valid] at invalid
  · next invalid => exact .of_violates (.spelling (Bool.eq_false_iff.mpr invalid))

theorem reported_checkOutputs (scope : Scope) (option : MethodOption) :
    Reported [.outputs scope option] (checkOutputs scope option) := by
  unfold checkOutputs
  simp only
  split
  · next several => exact .of_violates (.outputs several)
  · next single =>
    refine .of_complies fun problem violates => ?_
    cases violates with
    | outputs several => exact single several

theorem reported_checkItem (scope : Scope) (item : Item) :
    Reported (itemSites scope item) (checkItem scope item) := by
  rcases item with node | ⟨_ | name, constituents⟩
  · exact .nil
  · rw [itemSites, checkItem]
    split
    · next wrong => exact .of_violates (.size wrong)
    · next right =>
      refine .of_complies fun problem violates => ?_
      cases violates with
      | size wrong => exact right wrong
  · exact .nil

theorem reported_checkBounds (scope : Scope) (numeric : NumericParameter) :
    Reported [.bounds scope numeric]
      (checkBounds scope numeric.parameter.argument.ident numeric.min numeric.max) := by
  -- A violation has both bounds, so it gives away what the check finds.
  have found : ∀ {problem}, Violates (.bounds scope numeric) problem →
      checkBounds scope numeric.parameter.argument.ident numeric.min numeric.max = [problem] := by
    intro problem violates
    cases violates with
    | bounds lower upper inverted =>
      obtain ⟨high, low, readHigh, readLow, exceeds⟩ := inverted
      simp only [lower, upper, checkBounds, readHigh, readLow, exceeds, if_true]
  by_cases violated : ∃ problem, Violates (.bounds scope numeric) problem
  · obtain ⟨problem, violates⟩ := violated
    rw [found violates]
    exact .of_violates violates
  · have complies : ∀ problem, ¬ Violates (.bounds scope numeric) problem := not_exists.mp violated
    suffices checkBounds scope numeric.parameter.argument.ident numeric.min numeric.max = [] by
      rw [this]
      exact .of_complies complies
    unfold checkBounds
    split
    · next min max lower upper =>
      split
      · next high low readHigh readLow =>
        split
        · next exceeds =>
          exact absurd (.bounds lower upper ⟨high, low, readHigh, readLow, exceeds⟩)
            (complies (.invertedBounds scope numeric.parameter.argument.ident min max))
        · rfl
      · rfl
    · rfl

theorem reported_checkNode (scope : Scope) (option : MethodOption) (node : Node) :
    Reported (kindSites scope option node) (checkNode scope option node) := by
  cases node with
  | refInput argument target =>
    rw [kindSites, checkNode]
    cases resolved : option.resolve? argument target with
    | none => exact .of_violates (.target resolved)
    | some node =>
      refine .of_complies fun problem violates => ?_
      cases violates with
      | target unresolved =>
        rw [resolved] at unresolved
        cases unresolved
  | numeric n => exact reported_checkBounds scope n
  | enumeration e =>
    have values : Reported [.values scope e]
        (if e.descriptions.isEmpty then
          [.noDescriptions scope e.parameter.argument.ident] else []) := by
      split
      · next empty => exact .of_violates (.values (List.isEmpty_iff.mp empty))
      · next some =>
        refine .of_complies fun problem violates => ?_
        cases violates with
        | values none => exact some (List.isEmpty_iff.mpr none)
    have spellings : Reported (e.descriptions.map fun d => .spelling .enumDescription d.ident)
        (e.descriptions.flatMap fun d => checkIdent .enumDescription d.ident) := by
      rw [List.map_eq_flatMap]
      exact .flatMap fun d _ => reported_checkIdent .enumDescription d.ident
    exact values.append spellings
  | _ => exact .nil

/-! ## Enumerators -/

/-- What has been seen tells the owner of every enumerator among the spellings so far. -/
def Tells (seen : Seen) (before : List Ident) : Prop :=
  ∀ constant, seen.find? constant = Ident.owner? constant before

theorem tells_nil : Tells [] [] := fun _ => rfl

variable {method : Method} {option : MethodOption} {seen : Seen} {before after : List Ident}

theorem Tells.checkConstant {ident : Ident} (tells : Tells seen before) (scope : Scope) :
    Tells (checkConstant scope seen ident).1 (before ++ [ident]) := by
  intro constant
  rw [Ident.owner?, List.find?_append, ← Ident.owner?, ← tells constant]
  unfold Validation.checkConstant
  split
  · next owner known =>
    -- An enumerator that has been seen keeps its owner.
    by_cases same : ident.constant = constant
    · rw [← same, known, Option.some_or]
    · simp [same]
  · next unknown =>
    by_cases same : ident.constant = constant
    · rw [← same, unknown]
      simp [Seen.find?]
    · simp [Seen.find?, same]

/-- The owner of an enumerator is no problem. -/
theorem reported_owner (scope : Scope) {ident : Ident}
    (owned : method.owner? ident.constant = some ident) :
    Reported [.enumerator scope method ident] [] := by
  refine .of_complies fun problem violates => ?_
  cases violates with
  | enumerator owned' differs =>
    rw [owned] at owned'
    cases owned'
    exact differs rfl

theorem reported_checkConstant {ident : Ident} (scope : Scope) (tells : Tells seen before)
    (arguments : method.arguments.map Node.ident = before ++ ident :: after) :
    Reported [.enumerator scope method ident] (checkConstant scope seen ident).2 := by
  have owned : method.owner? ident.constant =
      (seen.find? ident.constant).or (some ident) := by
    rw [Method.owner?, arguments, Ident.owner?, List.find?_append, ← Ident.owner?,
      ← tells ident.constant]
    simp
  unfold checkConstant
  split
  · next owner known =>
    rw [known, Option.some_or] at owned
    split
    · next same => exact reported_owner scope (by rw [owned, same])
    · next differs => exact .of_violates (.enumerator owned differs)
  · next unknown =>
    rw [unknown, Option.none_or] at owned
    exact reported_owner scope owned

/-! ## The whole package -/

/-- The arguments of an option are reported behind those of the options before it, given what
    has been seen there; then the owners among them are known as well. -/
theorem reported_checkArguments (scope : Scope) (option : MethodOption) {nodes : List Node}
    (tells : Tells seen before)
    (arguments : method.arguments.map Node.ident = before ++ nodes.map Node.ident ++ after) :
    Reported (nodes.flatMap (nodeSites scope method option))
        (checkArguments scope option seen nodes).2 ∧
      Tells (checkArguments scope option seen nodes).1 (before ++ nodes.map Node.ident) := by
  induction nodes generalizing seen before with
  | nil => simpa [checkArguments] using ⟨Reported.nil, tells⟩
  | cons node rest ih =>
    rw [List.map_cons] at arguments ⊢
    have here : method.arguments.map Node.ident =
        before ++ node.ident :: (rest.map Node.ident ++ after) := by simpa using arguments
    have later : method.arguments.map Node.ident =
        before ++ [node.ident] ++ rest.map Node.ident ++ after := by simpa using arguments
    obtain ⟨reported, told⟩ := ih (tells.checkConstant scope) later
    have collisions := reported_checkConstant scope tells here
    constructor
    · have own : Reported (nodeSites scope method option node)
          (checkIdent .argument node.ident ++ (checkConstant scope seen node.ident).2 ++
            checkNode scope option node) :=
        ((reported_checkIdent .argument node.ident).append collisions).append
          (reported_checkNode scope option node)
      exact own.append reported
    · simpa [checkArguments] using told

theorem reported_checkOption (tells : Tells seen before)
    (arguments : method.arguments.map Node.ident =
      before ++ option.arguments.map Node.ident ++ after) :
    Reported (optionSites method option) (checkOption method.ident seen option).2 ∧
      Tells (checkOption method.ident seen option).1
        (before ++ option.arguments.map Node.ident) := by
  obtain ⟨reported, told⟩ :=
    reported_checkArguments ⟨method.ident, option.ident⟩ option tells arguments
  refine ⟨?_, told⟩
  have items : Reported (option.items.flatMap (itemSites ⟨method.ident, option.ident⟩))
      (option.items.flatMap (checkItem ⟨method.ident, option.ident⟩)) :=
    .flatMap fun item _ => reported_checkItem _ item
  have front := (reported_checkIdent .option option.ident).append
    (reported_checkOutputs ⟨method.ident, option.ident⟩ option)
  exact (front.append items).append reported

theorem reported_checkOptions {options : List MethodOption} (tells : Tells seen before)
    (arguments : method.arguments.map Node.ident =
      before ++ (options.flatMap MethodOption.arguments).map Node.ident) :
    Reported (options.flatMap (optionSites method))
      (checkOptions method.ident seen options).2 := by
  induction options generalizing seen before with
  | nil => exact .nil
  | cons option rest ih =>
    rw [List.flatMap_cons, List.map_append, ← List.append_assoc] at arguments
    obtain ⟨reported, told⟩ := reported_checkOption tells arguments
    exact reported.append (ih told arguments)

theorem reported_checkMethod (method : Method) :
    Reported (methodSites method) (checkMethod method) :=
  (reported_checkIdent .method method.ident).append
    (reported_checkOptions tells_nil (by rw [List.nil_append, Method.arguments]))

/-- Validation reports one problem for each violation, in the order of the sites. -/
theorem reported_problems (package : Package) : Reported (sites package) (problems package) :=
  (reported_checkIdent .package package.ident).append
    (.flatMap fun method _ => reported_checkMethod method)

/-- The sites of an argument are among those of the package. -/
theorem mem_sites {package : Package} {node : Node} {site : Site}
    (inPackage : method ∈ package.methods) (inMethod : option ∈ method.options)
    (inOption : node ∈ option.arguments)
    (member : site ∈ nodeSites ⟨method.ident, option.ident⟩ method option node) :
    site ∈ sites package := by
  have ofOption : site ∈ optionSites method option :=
    List.mem_append_right _ (List.mem_flatMap.mpr ⟨node, inOption, member⟩)
  have ofMethod : site ∈ methodSites method :=
    List.mem_cons_of_mem _ (List.mem_flatMap.mpr ⟨option, inMethod, ofOption⟩)
  exact List.mem_cons_of_mem _ (List.mem_flatMap.mpr ⟨method, inPackage, ofMethod⟩)

end Validation
end OperatorGen
