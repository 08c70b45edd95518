import OperatorGen.Emission.Setup
import OperatorGen.Proofs.FirstError

/-!
# Sections by option

A section that can fail (`tryForEachOption`) fails with the error of the first option for
which it fails, and it reaches every option, as there is a data flow where there are
several. One that succeeds for every option is a plain section (`forEachOption`).
-/
namespace OperatorGen.Setup

variable {ε δ : Type} {ids : DataIds} {method : Method}

theorem tryOptionCases_ok (body : MethodOption → List Step) (options : List MethodOption) :
    tryOptionCases (ε := ε) (fun option => .ok (body option)) options =
      .ok (options.flatMap fun option => optionCase option (body option)) := by
  induction options with
  | nil => rfl
  | cons option rest ih => simp only [tryOptionCases, ih]; rfl

/-- A section that never fails is a plain section. -/
theorem tryForEachOption_ok (body : MethodOption → List Step) :
    tryForEachOption (ε := ε) ids method (fun option => .ok (body option)) =
      .ok (forEachOption ids method body) := by
  unfold tryForEachOption forEachOption
  split
  · rw [tryOptionCases_ok]; rfl
  · split <;> rfl

theorem tryOptionCases_mapError (body : MethodOption → Except ε (List Step)) (words : ε → δ)
    (options : List MethodOption) :
    (tryOptionCases body options).mapError words =
      tryOptionCases (fun option => (body option).mapError words) options := by
  induction options with
  | nil => rfl
  | cons option rest ih => simp only [tryOptionCases, mapError_bind, ih]; rfl

theorem tryForEachOption_mapError (body : MethodOption → Except ε (List Step)) (words : ε → δ) :
    (tryForEachOption ids method body).mapError words =
      tryForEachOption ids method fun option => (body option).mapError words := by
  unfold tryForEachOption
  split
  · rw [mapError_bind, tryOptionCases_mapError]; rfl
  · split <;> rfl

theorem tryOptionCases_error_iff {body : MethodOption → Except ε (List Step)} {error : ε}
    {options : List MethodOption} :
    tryOptionCases body options = .error error ↔
      First (fun option e => body option = .error e) options error := by
  induction options with
  | nil => simp [tryOptionCases]
  | cons option rest ih =>
    simp only [tryOptionCases, bind_error_iff, First.cons_iff, ih]
    rcases ok_or_error (body option) with ⟨steps, done⟩ | ⟨e, failed⟩
    · simp [done]
    · simp [failed]

/-- A section fails with the error of the first option for which it fails. -/
theorem tryForEachOption_error_iff {body : MethodOption → Except ε (List Step)} {error : ε}
    (reached : ids.hasDataFlow = true ∨ method.options.length ≤ 1) :
    tryForEachOption ids method body = .error error ↔
      First (fun option e => body option = .error e) method.options error := by
  unfold tryForEachOption
  by_cases flow : ids.hasDataFlow = true
  · simp only [flow, if_true, bind_error_iff, tryOptionCases_error_iff]
    simp
  · have single : method.options.length ≤ 1 := reached.resolve_left flow
    simp only [flow, Bool.false_eq_true, if_false]
    rcases options : method.options with _ | ⟨option, _ | ⟨second, rest⟩⟩
    · simp
    · simp [First.cons_iff]
    · simp [options] at single

theorem tryOptionCases_congr {body other : MethodOption → Except ε (List Step)}
    {options : List MethodOption} (same : ∀ option ∈ options, body option = other option) :
    tryOptionCases body options = tryOptionCases other options := by
  induction options with
  | nil => rfl
  | cons option rest ih =>
    have head : body option = other option := same option (by simp)
    have tail := ih fun o member => same o (by simp [member])
    simp only [tryOptionCases, head, tail]

/-- A section depends on what it does for the options of the method only. -/
theorem tryForEachOption_congr {body other : MethodOption → Except ε (List Step)}
    (same : ∀ option ∈ method.options, body option = other option) :
    tryForEachOption ids method body = tryForEachOption ids method other := by
  unfold tryForEachOption
  split
  · rw [tryOptionCases_congr same]
  · split
    · next option first => exact same option (List.mem_of_mem_head? first)
    · rfl

/-- A section that succeeds has succeeded for every option. -/
theorem exists_of_tryForEachOption_ok {body : MethodOption → Except ε (List Step)}
    {steps : List Step} (reached : ids.hasDataFlow = true ∨ method.options.length ≤ 1)
    (done : tryForEachOption ids method body = .ok steps) {option : MethodOption}
    (member : option ∈ method.options) : ∃ each, body option = .ok each := by
  rcases ok_or_error (body option) with done | ⟨error, failed⟩
  · exact done
  · obtain ⟨other, first⟩ :
        ∃ other, First (fun option e => body option = .error e) method.options other :=
      First.exists_iff.mpr ⟨option, member, error, failed⟩
    rw [← tryForEachOption_error_iff reached, done] at first
    cases first

/-- A section that does the same as a plain one for every option is that plain section. -/
theorem tryForEachOption_eq {body : MethodOption → Except ε (List Step)}
    {plain : MethodOption → List Step}
    (same : ∀ option ∈ method.options, body option = .ok (plain option)) :
    tryForEachOption ids method body = .ok (forEachOption ids method plain) := by
  rw [tryForEachOption_congr same, tryForEachOption_ok]

/-- What the code of an option has is in a section for the options. -/
theorem mem_forEachOption {code : MethodOption → List Step}
    (reached : ids.hasDataFlow = true ∨ method.options.length ≤ 1)
    {option : MethodOption} (member : option ∈ method.options) {step : Step}
    (inCode : step ∈ code option) : step ∈ forEachOption ids method code := by
  by_cases flow : ids.hasDataFlow = true
  · have inCase : step ∈ optionCase option (code option) := by
      simp [optionCase, Step.nested, Step.scope, inCode]
    rw [forEachOption, if_pos flow, dataFlowSwitch]
    exact List.mem_append_left _ (List.mem_append_right _
      (List.mem_flatMap.mpr ⟨option, member, inCase⟩))
  · have single : method.options.length ≤ 1 := reached.resolve_left flow
    rw [forEachOption, if_neg flow]
    rcases options : method.options with _ | ⟨only, _ | ⟨second, rest⟩⟩
    · simp [options] at member
    · rw [options, List.mem_singleton] at member
      rwa [← member]
    · simp [options] at single

end OperatorGen.Setup
