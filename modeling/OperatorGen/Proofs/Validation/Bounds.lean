import OperatorGen.Proofs.CommandLine.FileTree
import OperatorGen.Proofs.Number.Literal
import OperatorGen.Proofs.Validation.Problems

/-!
# The order of bounds

The bounds of a parameter are compared as doubles, whereas what they denote are exact numbers.
Rounding keeps the order, so bounds that are in order are never reported, however they are
spelled (`ordered_bounds_pass`). It can make two numbers one, and then bounds that are inverted
by less than the distance of two doubles are not told apart: inverted bounds are reported
exactly if they are not rounded to one and the same double (`inverted_bounds_reported`).
-/
namespace OperatorGen

open Binary64 (NearestPlace)
open Literal (Denotes Converts)

/-! ## Comparison -/

namespace Literal

/-- Converted texts are compared by their places. -/
theorem Converts.exceeds_iff {first second : String} {p q : ℤ} (left : Converts first p)
    (right : Converts second q) : Exceeds first second ↔ q < p := by
  obtain ⟨high, reads, placed⟩ := left
  obtain ⟨low, reads', placed'⟩ := right
  have compared : high.toBinary64.exceeds low.toBinary64 = true ↔ q < p := by
    simp only [Binary64.exceeds, placed, placed', decide_eq_true_iff]
  rw [← compared]
  constructor
  · rintro ⟨_, _, found, found', exceeds⟩
    rw [reads] at found
    rw [reads'] at found'
    cases found
    cases found'
    exact exceeds
  · exact fun exceeds => ⟨high, low, reads, reads', exceeds⟩

/-- Of bounds that are inverted, the first is the greater double, unless both are rounded to the
    same one. -/
theorem exceeds_iff_apart {min max : String} {low high : ℚ} (lower : Denotes min low)
    (upper : Denotes max high) (inverted : high < low) :
    Exceeds min max ↔ ¬ ∃ place, NearestPlace low place ∧ NearestPlace high place := by
  obtain ⟨p, converts, nearest⟩ := lower.converts
  obtain ⟨q, converts', nearest'⟩ := upper.converts
  have order : q ≤ p := nearest'.mono nearest inverted.le
  rw [converts.exceeds_iff converts', lt_iff_le_and_ne]
  constructor
  · rintro ⟨-, apart⟩ ⟨place, same, same'⟩
    exact apart (by rw [nearest'.unique same', nearest.unique same])
  · intro apart
    refine ⟨order, ?_⟩
    rintro rfl
    exact apart ⟨q, nearest, nearest'⟩

end Literal

namespace Validation

/-- A parameter `k` of 64 bits with bounds. -/
def boundedParameter (min max : String) : NumericParameter where
  parameter :=
    { argument := { ident := ⟨"k"⟩, nativeType := "int64_t", wrapperType := "Int64" } }
  min := some min
  max := some max

/-- A package of parameters with bounds. -/
def boundedPackage (parameters : List NumericParameter) : Package where
  ident := ⟨"vision"⟩
  version := ⟨1, 0, 0⟩
  methods := [{
    ident := ⟨"blur"⟩
    options := [{ ident := ⟨"manual"⟩, items := parameters.map fun n => .node (.numeric n) }] }]

/-! ## Reports -/

section
variable {min max : String} {low high : ℚ}

theorem exists_reported_iff {package : Package} {problem : Problem} :
    (∃ problems, Generation.validate package = .error (.invalid problems) ∧ problem ∈ problems) ↔
      problem ∈ problems package := by
  simp only [Generation.validate_error_iff, Error.invalid.injEq]
  constructor
  · rintro ⟨_, ⟨-, rfl⟩, member⟩
    exact member
  · exact fun member => ⟨_, ⟨List.ne_nil_of_mem member, rfl⟩, member⟩

/-- Bounds are only reported if the first is the greater double. -/
theorem exceeds_of_mem {package : Package} {scope : Scope} {ident : Ident}
    (member : .invertedBounds scope ident min max ∈ problems package) :
    Literal.Exceeds min max := by
  obtain ⟨site, -, violates⟩ := (reported_problems package).exists_violated member
  cases violates with
  | bounds _ _ inverted => exact inverted

/-- Bounds that are in order stay so when they are converted to doubles, each to the one that it
    is rounded to, and no report names them. -/
theorem ordered_bounds_pass (lower : Denotes min low) (upper : Denotes max high)
    (ordered : low ≤ high) :
    (∃ p q, Converts min p ∧ Converts max q ∧ NearestPlace low p ∧ NearestPlace high q ∧ p ≤ q) ∧
      ∀ package error, Generation.validate package = .error error →
        ∃ problems, error = .invalid problems ∧
          ∀ scope ident, .invertedBounds scope ident min max ∉ problems := by
  obtain ⟨p, converts, nearest⟩ := lower.converts
  obtain ⟨q, converts', nearest'⟩ := upper.converts
  have order : p ≤ q := nearest.mono nearest' ordered
  refine ⟨⟨p, q, converts, converts', nearest, nearest', order⟩, fun package error failed => ?_⟩
  obtain ⟨-, rfl⟩ := Generation.validate_error_iff.mp failed
  refine ⟨problems package, rfl, fun scope ident member => ?_⟩
  exact absurd ((converts.exceeds_iff converts').mp (exceeds_of_mem member)) (not_lt.mpr order)

end

/-- A package of bounds beyond all doubles, and of bounds that are inverted. -/
def hugePackage : Package :=
  boundedPackage [boundedParameter "1e400" "+2.E0400", boundedParameter "10" "1"]

/-- Bounds that both become infinite are not among the problems. -/
theorem huge_bounds_pass :
    Denotes "1e400" (10 ^ 400) ∧ Denotes "+2.E0400" (2 * 10 ^ 400) ∧
      (10 : ℚ) ^ 400 ≤ 2 * 10 ^ 400 ∧
      (∃ p q, Converts "1e400" p ∧ Converts "+2.E0400" q ∧ NearestPlace (10 ^ 400) p ∧
        NearestPlace (2 * 10 ^ 400) q ∧ p ≤ q) ∧
      ∃ problems, Generation.validate hugePackage = .error (.invalid problems) ∧
        ∀ scope ident, .invertedBounds scope ident "1e400" "+2.E0400" ∉ problems := by
  have lower : Denotes "1e400" (10 ^ 400) :=
    Literal.denotes_iff.mpr ⟨⟨false, 1, 400⟩, by decide +kernel, by norm_num [Decimal.value]⟩
  have upper : Denotes "+2.E0400" (2 * 10 ^ 400) :=
    Literal.denotes_iff.mpr ⟨⟨false, 2, 400⟩, by decide +kernel, by norm_num [Decimal.value]⟩
  have ordered : (10 : ℚ) ^ 400 ≤ 2 * 10 ^ 400 := by norm_num
  have failed : Generation.validate hugePackage = .error (.invalid (problems hugePackage)) :=
    Generation.validate_error_iff.mpr ⟨by decide +kernel, rfl⟩
  obtain ⟨converted, unnamed⟩ := ordered_bounds_pass lower upper ordered
  obtain ⟨problems, same, passed⟩ := unnamed _ _ failed
  exact ⟨lower, upper, ordered, converted, problems, same ▸ failed, passed⟩

section
variable {package : Package} {method : Method} {option : MethodOption} {n : NumericParameter}
  {min max : String} {low high : ℚ}

/-- Inverted bounds of a parameter are reported exactly if they are not rounded to the same
    double. -/
theorem inverted_bounds_reported (inPackage : method ∈ package.methods)
    (inMethod : option ∈ method.options) (inOption : .numeric n ∈ option.arguments)
    (isMin : n.min = some min) (isMax : n.max = some max) (lower : Denotes min low)
    (upper : Denotes max high) (inverted : high < low) :
    (∃ problems, Generation.validate package = .error (.invalid problems) ∧
        .invertedBounds ⟨method.ident, option.ident⟩ n.parameter.argument.ident min max ∈
          problems) ↔
      ¬ ∃ place, NearestPlace low place ∧ NearestPlace high place := by
  rw [exists_reported_iff, ← Literal.exceeds_iff_apart lower upper inverted]
  constructor
  · exact exceeds_of_mem
  · intro exceeds
    have site : .bounds ⟨method.ident, option.ident⟩ n ∈
        nodeSites ⟨method.ident, option.ident⟩ method option (.numeric n) :=
      List.mem_append_right _ List.mem_cons_self
    exact (reported_problems package).mem_of_violates (mem_sites inPackage inMethod inOption site)
      (.bounds isMin isMax exceeds)

end

def neighbourPackage : Package :=
  boundedPackage [boundedParameter "+.30000000000000004" "3e-1"]

/-- Neighbouring doubles are told apart. -/
theorem neighbouring_bounds_reported :
    Denotes "+.30000000000000004" (30000000000000004 / 10 ^ 17) ∧ Denotes "3e-1" (3 / 10) ∧
      (3 / 10 : ℚ) < 30000000000000004 / 10 ^ 17 ∧
      (∃ problems, Generation.validate neighbourPackage = .error (.invalid problems) ∧
        .invertedBounds ⟨⟨"blur"⟩, ⟨"manual"⟩⟩ ⟨"k"⟩ "+.30000000000000004" "3e-1" ∈ problems) ∧
      ¬ ∃ place,
        NearestPlace (30000000000000004 / 10 ^ 17) place ∧ NearestPlace (3 / 10) place := by
  have lower : Denotes "+.30000000000000004" (30000000000000004 / 10 ^ 17) :=
    Literal.denotes_iff.mpr
      ⟨⟨false, 30000000000000004, -17⟩, by decide +kernel, by norm_num [Decimal.value]⟩
  have upper : Denotes "3e-1" (3 / 10) :=
    Literal.denotes_iff.mpr ⟨⟨false, 3, -1⟩, by decide +kernel, by norm_num [Decimal.value]⟩
  have inverted : (3 / 10 : ℚ) < 30000000000000004 / 10 ^ 17 := by norm_num
  have reported : ∃ problems,
      Generation.validate neighbourPackage = .error (.invalid problems) ∧
        .invertedBounds ⟨⟨"blur"⟩, ⟨"manual"⟩⟩ ⟨"k"⟩ "+.30000000000000004" "3e-1" ∈ problems :=
    exists_reported_iff.mpr (by decide +kernel)
  have inPackage : _ ∈ neighbourPackage.methods := List.mem_cons_self
  exact ⟨lower, upper, inverted, reported, (inverted_bounds_reported inPackage List.mem_cons_self
    List.mem_cons_self rfl rfl lower upper inverted).mp reported⟩

/-- Whole numbers that need more than 53 bits pass although they are inverted. -/
theorem close_bounds_accepted :
    Denotes "9007199254740993" 9007199254740993 ∧ Denotes "9007199254740992" 9007199254740992 ∧
      (9007199254740992 : ℚ) < 9007199254740993 ∧
      Generation.validate
        (boundedPackage [boundedParameter "9007199254740993" "9007199254740992"]) = .ok () := by
  have lower : Denotes "9007199254740993" 9007199254740993 :=
    Literal.denotes_iff.mpr
      ⟨⟨false, 9007199254740993, 0⟩, by decide +kernel, by norm_num [Decimal.value]⟩
  have upper : Denotes "9007199254740992" 9007199254740992 :=
    Literal.denotes_iff.mpr
      ⟨⟨false, 9007199254740992, 0⟩, by decide +kernel, by norm_num [Decimal.value]⟩
  exact ⟨lower, upper, by norm_num, Generation.validate_ok_iff.mpr (by decide +kernel)⟩

end Validation
end OperatorGen
