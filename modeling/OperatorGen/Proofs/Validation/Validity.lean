import Mathlib.Tactic.ByContra
import OperatorGen.Proofs.CommandLine.FileTree
import OperatorGen.Proofs.Validation.Problems

/-!
# Valid packages

What a valid package is, told part by part (`Valid`). The enumerators of a method are told
apart there by comparing any two arguments, whereas validation compares each argument with
the first one that has the same enumerator (`distinguishes_iff`). A package passes exactly
if it is valid, and otherwise the error lists one problem for each violation
(`validate_reports`).
-/
namespace OperatorGen.Validation

/-- The rule for the kind of an argument: a ref input has a target in its option, the bounds of
    a numeric parameter are in order where both are literals, and an enum parameter has
    descriptions with proper spellings. -/
def ValidKind (option : MethodOption) : Node → Prop
  | .refInput argument target => ∃ node, option.resolve? argument target = some node
  | .numeric numeric => ∀ min max, numeric.min = some min → numeric.max = some max →
      ¬ Literal.Exceeds min max
  | .enumeration enumeration => enumeration.descriptions ≠ [] ∧
      ∀ description ∈ enumeration.descriptions, description.ident.isValid = true
  | _ => True

/-- Nothing is wrong with an option by itself. -/
structure ValidOption (option : MethodOption) : Prop where
  ident : option.ident.isValid = true
  outputs : option.arguments.countP Node.isOutput ≤ 1
  sizes : ∀ constituents, Item.compound ⟨.size, constituents⟩ ∈ option.items →
    constituents.length = 2
  arguments : ∀ node ∈ option.arguments, node.ident.isValid = true
  kinds : ∀ node ∈ option.arguments, ValidKind option node

/-- Any two arguments of a method with one enumerator have one spelling. -/
def Distinguishes (method : Method) : Prop :=
  ∀ a ∈ method.arguments, ∀ b ∈ method.arguments,
    a.ident.constant = b.ident.constant → a.ident = b.ident

structure ValidMethod (method : Method) : Prop where
  ident : method.ident.isValid = true
  options : ∀ option ∈ method.options, ValidOption option
  enumerators : Distinguishes method

/-- Nothing is wrong with a package. -/
structure Valid (package : Package) : Prop where
  ident : package.ident.isValid = true
  methods : ∀ method ∈ package.methods, ValidMethod method

/-! ## Compliance with single rules -/

/-- A site complies with its rule. -/
def Complies (site : Site) : Prop :=
  ∀ problem, ¬ Violates site problem

section
variable {scope : Scope} {method : Method} {option : MethodOption}

theorem complies_spelling {role : Role} {ident : Ident} :
    Complies (.spelling role ident) ↔ ident.isValid = true := by
  constructor
  · intro complies
    by_contra invalid
    exact complies _ (.spelling (Bool.eq_false_iff.mpr invalid))
  · intro valid problem violates
    cases violates with
    | spelling invalid => simp [valid] at invalid

theorem complies_outputs :
    Complies (.outputs scope option) ↔ option.arguments.countP Node.isOutput ≤ 1 := by
  constructor
  · intro complies
    by_contra several
    exact complies _ (.outputs (Nat.lt_of_not_le several))
  · intro single problem violates
    cases violates with
    | outputs several => omega

theorem complies_size {constituents : List Node} :
    Complies (.size scope constituents) ↔ constituents.length = 2 := by
  constructor
  · intro complies
    by_contra wrong
    exact complies _ (.size wrong)
  · intro right problem violates
    cases violates with
    | size wrong => exact wrong right

theorem complies_target {argument : Argument} {target : Ident} :
    Complies (.target scope option argument target) ↔
      ∃ node, option.resolve? argument target = some node := by
  rw [← Option.ne_none_iff_exists']
  constructor
  · exact fun complies unresolved => complies _ (.target unresolved)
  · intro resolved problem violates
    cases violates with
    | target unresolved => exact resolved unresolved

theorem complies_bounds {numeric : NumericParameter} :
    Complies (.bounds scope numeric) ↔ ∀ min max, numeric.min = some min →
      numeric.max = some max → ¬ Literal.Exceeds min max := by
  constructor
  · exact fun complies min max lower upper inverted => complies _ (.bounds lower upper inverted)
  · intro ordered problem violates
    cases violates with
    | bounds lower upper inverted => exact ordered _ _ lower upper inverted

theorem complies_values {enumeration : EnumParameter} :
    Complies (.values scope enumeration) ↔ enumeration.descriptions ≠ [] := by
  constructor
  · exact fun complies none => complies _ (.values none)
  · intro some problem violates
    cases violates with
    | values none => exact some none

theorem complies_enumerator {ident : Ident} :
    Complies (.enumerator scope method ident) ↔
      ∀ owner, method.owner? ident.constant = some owner → owner = ident := by
  constructor
  · intro complies owner owned
    by_contra differs
    exact complies _ (.enumerator owned differs)
  · intro own problem violates
    cases violates with
    | enumerator owned differs => exact differs (own _ owned)

/-- It suffices to compare every argument with the first that has its enumerator. -/
theorem distinguishes_iff :
    Distinguishes method ↔ ∀ node ∈ method.arguments, ∀ owner,
      method.owner? node.ident.constant = some owner → owner = node.ident := by
  constructor
  · intro distinguishes node member owner owned
    have same : owner.constant = node.ident.constant := by
      simpa using List.find?_some owned
    obtain ⟨first, inMethod, rfl⟩ := List.mem_map.mp (List.mem_of_find?_eq_some owned)
    exact distinguishes first inMethod node member same
  · intro owners a inMethod b inMethod' same
    -- The first argument with the enumerator of both has the spelling of either.
    have found : (method.owner? a.ident.constant).isSome = true := by
      rw [Method.owner?, Ident.owner?, List.find?_isSome]
      exact ⟨a.ident, List.mem_map_of_mem inMethod, by simp⟩
    obtain ⟨owner, owned⟩ := Option.isSome_iff_exists.mp found
    rw [← owners a inMethod owner owned]
    rw [same] at owned
    exact owners b inMethod' owner owned

end

/-! ## Compliance of a whole package -/

theorem complies_itemSites {scope : Scope} {item : Item} :
    (∀ site ∈ itemSites scope item, Complies site) ↔
      ∀ constituents, item = .compound ⟨.size, constituents⟩ → constituents.length = 2 := by
  rcases item with node | ⟨_ | name, constituents⟩
  · simp [itemSites]
  · simp [itemSites, complies_size]
  · simp [itemSites]

theorem complies_kindSites {scope : Scope} {option : MethodOption} {node : Node} :
    (∀ site ∈ kindSites scope option node, Complies site) ↔ ValidKind option node := by
  cases node with
  | refInput argument target =>
    rw [kindSites, List.forall_mem_singleton, complies_target, ValidKind]
  | numeric n => rw [kindSites, List.forall_mem_singleton, complies_bounds, ValidKind]
  | enumeration e =>
    rw [kindSites, List.forall_mem_cons, List.forall_mem_map, complies_values, ValidKind]
    simp only [complies_spelling]
  | _ => simp [kindSites, ValidKind]

theorem complies_nodeSites {scope : Scope} {method : Method} {option : MethodOption}
    {node : Node} :
    (∀ site ∈ nodeSites scope method option node, Complies site) ↔
      node.ident.isValid = true ∧
        (∀ owner, method.owner? node.ident.constant = some owner → owner = node.ident) ∧
          ValidKind option node := by
  rw [nodeSites, List.forall_mem_append, List.forall_mem_cons, List.forall_mem_singleton,
    complies_spelling, complies_enumerator, complies_kindSites, and_assoc]

theorem complies_optionSites {method : Method} {option : MethodOption} :
    (∀ site ∈ optionSites method option, Complies site) ↔
      ValidOption option ∧ ∀ node ∈ option.arguments, ∀ owner,
        method.owner? node.ident.constant = some owner → owner = node.ident := by
  rw [optionSites, List.forall_mem_append, List.forall_mem_append, List.forall_mem_cons,
    List.forall_mem_singleton, List.forall_mem_flatMap, List.forall_mem_flatMap,
    complies_spelling, complies_outputs]
  simp only [complies_itemSites, complies_nodeSites]
  constructor
  · rintro ⟨⟨⟨ident, outputs⟩, sizes⟩, nodes⟩
    refine ⟨⟨ident, outputs, ?_, ?_, ?_⟩, ?_⟩
    · exact fun constituents member => sizes _ member constituents rfl
    · exact fun node member => (nodes node member).1
    · exact fun node member => (nodes node member).2.2
    · exact fun node member => (nodes node member).2.1
  · rintro ⟨valid, owners⟩
    refine ⟨⟨⟨valid.ident, valid.outputs⟩, ?_⟩, fun node member => ?_⟩
    · rintro _ member constituents rfl
      exact valid.sizes constituents member
    · exact ⟨valid.arguments node member, owners node member, valid.kinds node member⟩

theorem complies_methodSites {method : Method} :
    (∀ site ∈ methodSites method, Complies site) ↔ ValidMethod method := by
  have owners : (∀ option ∈ method.options, ∀ node ∈ option.arguments, ∀ owner,
      method.owner? node.ident.constant = some owner → owner = node.ident) ↔
        Distinguishes method := by
    rw [distinguishes_iff, Method.arguments, List.forall_mem_flatMap]
  rw [methodSites, List.forall_mem_cons, List.forall_mem_flatMap, complies_spelling]
  simp only [complies_optionSites, forall_and]
  rw [owners]
  constructor
  · rintro ⟨ident, options, enumerators⟩
    exact ⟨ident, options, enumerators⟩
  · exact fun valid => ⟨valid.ident, valid.options, valid.enumerators⟩

/-- A package without problems is a valid one. -/
theorem problems_eq_nil_iff {package : Package} : problems package = [] ↔ Valid package := by
  have reported := reported_problems package
  have none : problems package = [] ↔ ∀ site ∈ sites package, Complies site := by
    constructor
    · intro empty
      rw [empty] at reported
      exact Reported.nil_iff_complies.mp reported
    · exact fun complies => reported.unique (Reported.nil_iff_complies.mpr complies)
  rw [none, sites, List.forall_mem_cons, List.forall_mem_flatMap, complies_spelling]
  simp only [complies_methodSites]
  exact ⟨fun ⟨ident, methods⟩ => ⟨ident, methods⟩, fun valid => ⟨valid.ident, valid.methods⟩⟩

/-- A package passes validation exactly if it is valid. Otherwise the error is a list of
    problems, one for each violation in the order of the sites, with semicolons between
    their messages. -/
theorem validate_reports (package : Package) :
    (Generation.validate package = .ok () ↔ Valid package) ∧
      ∀ error, Generation.validate package = .error error ↔
        ∃ problems, Reported (sites package) problems ∧ problems ≠ [] ∧
          error = .invalid problems ∧
          error.message = "invalid package: " ++ "; ".intercalate (problems.map Problem.message) := by
  refine ⟨Generation.validate_ok_iff.trans problems_eq_nil_iff, fun error => ?_⟩
  have reported := reported_problems package
  rw [Generation.validate_error_iff]
  constructor
  · rintro ⟨some, rfl⟩
    exact ⟨problems package, reported, some, rfl, rfl⟩
  · rintro ⟨problems, reported', some, rfl, -⟩
    obtain rfl := reported.unique reported'
    exact ⟨some, rfl⟩

end OperatorGen.Validation
