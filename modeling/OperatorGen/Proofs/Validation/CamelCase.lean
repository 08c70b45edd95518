import OperatorGen.Proofs.Ident.Enumerator
import OperatorGen.Proofs.Validation.Validity

/-!
# Spellings in camel case

Identifiers are meant to be in camel case (`Ident.isCamelCase`), though validation does not ask
for it. The enumerator of such a spelling has an underscore in front of every capital and every
digit, and nowhere else, so the spelling can be read off it again (`constant_inj_of_camelCase`).
Validation therefore has no collision to report of a method whose arguments are all in camel
case (`camelCase_told_apart`).
-/
namespace OperatorGen

namespace Ident

/-- Whether a spelling is in camel case: an ASCII lower case letter, and behind it letters and
    digits of ASCII only. -/
def isCamelCase (ident : Ident) : Bool :=
  match ident.text.toList with
  | [] => false
  | first :: rest => first.isLower && rest.all Char.isAlphanum

theorem exists_of_isCamelCase {ident : Ident} (camel : ident.isCamelCase = true) :
    ∃ first rest, ident.text.toList = first :: rest ∧ ('a' ≤ first ∧ first ≤ 'z') ∧
      '_' ∉ first :: rest := by
  unfold isCamelCase at camel
  split at camel
  · cases camel
  · next first rest chars =>
    rw [Bool.and_eq_true, List.all_eq_true] at camel
    have lower : 'a' ≤ first ∧ first ≤ 'z' :=
      (Bool.and_eq_true_iff.mp camel.1).imp of_decide_eq_true of_decide_eq_true
    refine ⟨first, rest, chars, lower, ?_⟩
    rw [List.mem_cons, not_or]
    constructor
    · rintro rfl
      exact absurd lower (by decide)
    · exact fun member => absurd (camel.2 '_' member) (by decide)

/-- Spellings in camel case have enumerators of their own. -/
theorem constant_inj_of_camelCase {a b : Ident} (camel : a.isCamelCase = true)
    (camel' : b.isCamelCase = true) (same : a.constant = b.constant) : a = b := by
  obtain ⟨first, rest, chars, lower, plain⟩ := exists_of_isCamelCase camel
  obtain ⟨first', rest', chars', lower', plain'⟩ := exists_of_isCamelCase camel'
  have enumerators : constantChars (first :: rest) = constantChars (first' :: rest') := by
    rw [← chars, ← chars']
    exact String.ofList_injective same
  -- The enumerator leaves open the case of the first letter, which is a lower case letter.
  obtain ⟨upper, tails⟩ := List.cons.inj ((constantChars_inj plain plain').mp enumerators)
  have opens : opensWord first = opensWord first' := by
    rw [(upperChar_of_lower lower).1, (upperChar_of_lower lower').1]
  have spelled : a.text.toList = b.text.toList := by
    rw [chars, chars', eq_of_upperChar_eq opens upper, tails]
  cases a
  cases b
  exact congrArg Ident.mk (String.toList_injective spelled)

end Ident

/-- Whether all arguments of a method are in camel case. -/
def Method.isCamelCase (method : Method) : Bool :=
  method.arguments.all fun node => node.ident.isCamelCase

/-- Whether a problem is that two spellings have one enumerator. -/
def Problem.isCollision : Problem → Bool
  | collision _ _ _ => true
  | _ => false

namespace Validation

/-- The collisions among problems. -/
def collisions (problems : List Problem) : List Problem :=
  problems.filter Problem.isCollision

theorem collisions_checkIdent (role : Role) (ident : Ident) :
    collisions (checkIdent role ident) = [] := by
  unfold checkIdent
  split <;> rfl

theorem collisions_problems (package : Package) :
    collisions (problems package) =
      package.methods.flatMap fun method => collisions (checkMethod method) := by
  have ident := collisions_checkIdent .package package.ident
  rw [problems, collisions, List.filter_append, ← collisions, ident, List.nil_append,
    List.filter_flatMap]
  rfl

section
variable {scope : Scope} {method other : Method} {ident : Ident}

theorem enumerator_not_mem_itemSites (itemScope : Scope) (item : Item) :
    .enumerator scope method ident ∉ itemSites itemScope item := by
  rcases item with node | ⟨_ | name, constituents⟩ <;> simp [itemSites]

theorem enumerator_not_mem_kindSites (optionScope : Scope) (option : MethodOption) (node : Node) :
    .enumerator scope method ident ∉ kindSites optionScope option node := by
  cases node <;> simp [kindSites]

/-- The enumerators that are looked at for a method are those of its own arguments. -/
theorem mem_methodSites_enumerator (member : .enumerator scope other ident ∈ methodSites method) :
    other = method ∧ ∃ node ∈ method.arguments, node.ident = ident := by
  rw [methodSites, List.mem_cons, List.mem_flatMap] at member
  rcases member with spelling | ⟨option, inOptions, inOption⟩
  · cases spelling
  · rw [optionSites, List.mem_append, List.mem_append] at inOption
    rcases inOption with (front | items) | arguments
    · simp at front
    · obtain ⟨item, -, inItem⟩ := List.mem_flatMap.mp items
      exact absurd inItem (enumerator_not_mem_itemSites _ item)
    · obtain ⟨node, inArguments, inNode⟩ := List.mem_flatMap.mp arguments
      rw [nodeSites, List.mem_append] at inNode
      rcases inNode with own | kind
      · simp only [List.mem_cons, reduceCtorEq, Site.enumerator.injEq, List.not_mem_nil, or_false,
          false_or] at own
        obtain ⟨-, rfl, rfl⟩ := own
        exact ⟨rfl, node, List.mem_flatMap.mpr ⟨option, inOptions, inArguments⟩, rfl⟩
      · exact absurd kind (enumerator_not_mem_kindSites _ option node)

end

/-- A method whose arguments keep their enumerators apart has no collisions. -/
theorem collisions_checkMethod {method : Method} (distinguishes : Distinguishes method) :
    collisions (checkMethod method) = [] := by
  rw [collisions, List.filter_eq_nil_iff]
  intro problem reported collides
  obtain ⟨site, inMethod, violates⟩ := (reported_checkMethod method).exists_violated reported
  cases violates with
  | enumerator owned differs =>
    obtain ⟨rfl, node, inArguments, rfl⟩ := mem_methodSites_enumerator inMethod
    exact differs (distinguishes_iff.mp distinguishes node inArguments _ owned)
  | _ => cases collides

theorem distinguishes_of_isCamelCase {method : Method} (camel : method.isCamelCase = true) :
    Distinguishes method := by
  rw [Method.isCamelCase, List.all_eq_true] at camel
  intro a inMethod b inMethod' same
  exact Ident.constant_inj_of_camelCase (camel a inMethod) (camel b inMethod') same

/-- Spellings in camel case are told apart by their enumerators, so all collisions that are
    reported of a package are those of methods with an argument that is not in camel case. -/
theorem camelCase_told_apart :
    (∀ a b : Ident, a.isCamelCase = true → b.isCamelCase = true →
      a.constant = b.constant → a = b) ∧
      ∀ (package : Package) (error : Error), Generation.validate package = .error error →
        ∃ problems, error = .invalid problems ∧
          collisions problems = package.methods.flatMap fun method =>
            if method.isCamelCase then [] else collisions (checkMethod method) := by
  refine ⟨fun a b => Ident.constant_inj_of_camelCase, fun package error failed => ?_⟩
  obtain ⟨-, rfl⟩ := Generation.validate_error_iff.mp failed
  refine ⟨problems package, rfl, ?_⟩
  rw [collisions_problems]
  refine List.flatMap_congr fun method _ => ?_
  split
  · next camel => exact collisions_checkMethod (distinguishes_of_isCamelCase camel)
  · rfl

/-- An option of inputs. -/
def inputOption (ident : String) (inputs : List String) : MethodOption where
  ident := ⟨ident⟩
  items := inputs.map fun input => .node (.input { ident := ⟨input⟩ } false)

/-- A package of two methods, the first of which is in camel case. -/
def mixedPackage : Package where
  ident := ⟨"vision"⟩
  version := ⟨1, 0, 0⟩
  methods := [
    { ident := ⟨"blur"⟩
      options := [inputOption "manual" ["srcPos", "srcpos"], inputOption "allocate" ["srcPos1"]] },
    { ident := ⟨"warp"⟩
      options := [inputOption "manual" ["srcPos", "SrcPos"]] }]

/-- The spellings `srcPos` and `srcpos` of the first method do not collide, and those of the second
    method are what is reported. -/
theorem mixedPackage_collisions :
    (Ident.mk "srcPos").constant ≠ (Ident.mk "srcpos").constant ∧
      ∃ problems, Generation.validate mixedPackage = .error (.invalid problems) ∧
        collisions problems =
          [.collision ⟨⟨"warp"⟩, ⟨"manual"⟩⟩ ⟨"srcPos"⟩ ⟨"SrcPos"⟩] := by
  obtain ⟨apart, others⟩ := camelCase_told_apart
  constructor
  · intro same
    exact absurd (apart ⟨"srcPos"⟩ ⟨"srcpos"⟩ (by decide) (by decide) same) (by decide)
  · have failed : Generation.validate mixedPackage = .error (.invalid (problems mixedPackage)) :=
      Generation.validate_error_iff.mpr ⟨by decide +kernel, rfl⟩
    obtain ⟨reported, same, collided⟩ := others mixedPackage _ failed
    refine ⟨reported, same ▸ failed, ?_⟩
    rw [collided]
    decide +kernel

end Validation
end OperatorGen
