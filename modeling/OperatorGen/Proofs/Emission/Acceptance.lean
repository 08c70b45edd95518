import OperatorGen.Proofs.CommandLine.Writing
import OperatorGen.Proofs.Emission.Failure
import OperatorGen.Proofs.Validation.Validity

/-!
# Emission of valid packages

Of the reasons for which emission fails, validation excludes two: second outputs and ref
inputs without a target. A method that declares the data flow itself is valid, yet no file
can be rendered for it (`reserved_spelling_accepted`); this is all that can go wrong with a
valid package (`valid_emission`), and so all that can stop a generation in emission once
every file passes a check.
-/
namespace OperatorGen

/-- The error of a valid method: that of the data flow. -/
def ReservedError (method : Method) (error : EmitError) : Prop :=
  DeclaresDataFlow method ∧ error = .reservedDataFlow method.ident

theorem ReservedError.exists_iff {method : Method} :
    (∃ error, ReservedError method error) ↔ DeclaresDataFlow method := by
  simp only [ReservedError, exists_and_left, exists_eq, and_true]

/-! ## What validation excludes -/

namespace Validation

/-- An option of a valid package has no second output, and every ref input of it has a
    target. -/
theorem options_of_valid {package : Package} (valid : problems package = []) :
    ∀ method ∈ package.methods, ∀ option ∈ method.options,
      ¬ SeveralOutputs option ∧ ¬ Dangling option := by
  intro method inPackage option inMethod
  have validOption : ValidOption option :=
    ((problems_eq_nil_iff.mp valid).methods method inPackage).options option inMethod
  refine ⟨Nat.not_lt_of_le validOption.outputs, ?_⟩
  rintro ⟨argument, target, member, unresolved⟩
  obtain ⟨found, resolved⟩ : ∃ found, option.resolve? argument target = some found :=
    validOption.kinds _ member
  rw [resolved] at unresolved
  cases unresolved

end Validation

/-! ## What can still go wrong -/

theorem methodError_of_valid {method : Method} {error : EmitError}
    (valid : ∀ option ∈ method.options, ¬ SeveralOutputs option ∧ ¬ Dangling option) :
    MethodError method error ↔ ReservedError method error := by
  constructor
  · intro failed
    cases failed with
    | reserved taken => exact ⟨taken, rfl⟩
    | option free first =>
      obtain ⟨option, member, failing⟩ := First.exists_iff.mp ⟨error, first⟩
      rcases OptionError.exists_iff.mp failing with several | dangling
      · exact absurd several (valid option member).1
      · exact absurd dangling (valid option member).2
  · rintro ⟨taken, rfl⟩
    exact .reserved taken

/-- The error of a valid package is that of the first method that declares the data flow. -/
theorem packageError_of_valid {package : Package} {error : EmitError}
    (valid : Validation.problems package = []) :
    PackageError package error ↔ First ReservedError package.methods error :=
  First.congr fun method member _ =>
    methodError_of_valid (Validation.options_of_valid valid method member)

namespace Emission

theorem renderPackages_error_iff (config : Config) {packages : List Package}
    {error : EmitError} :
    renderPackages config packages = .error error ↔ First PackageError packages error := by
  induction packages with
  | nil => simp [renderPackages]
  | cons package rest ih =>
    simp only [renderPackages, bind_error_iff, First.cons_iff, ih,
      ← renderPackage_error_iff config]
    rcases ok_or_error (renderPackage config package) with ⟨files, done⟩ | ⟨reason, failed⟩
    · simp [done]
    · simp [failed]

end Emission

/-! ## Generation -/

/-- A generation ends with an error of emission exactly if the packages have one. -/
theorem Generation.emit_error_iff {config : Config} {output : String} {packages : List Package}
    {tree : FileTree} {reason : EmitError} :
    ((emit FileTree.disk config output packages).run tree).1 = .error (.emit reason) ↔
      First PackageError packages reason := by
  rw [← Emission.renderPackages_error_iff config, emit]
  cases Emission.renderPackages config packages with
  | error other =>
    show Except.error (Error.emit other) = Except.error (Error.emit reason) ↔ _
    simp
  | ok files =>
    simp only [reduceCtorEq, iff_false]
    intro failed
    obtain ⟨system, impossible⟩ := writeFiles_error failed
    cases impossible

namespace CommandLine

/-- The outcome of a command on a file tree. -/
def outcomeOn (tree : FileTree) (command : Command) : Outcome :=
  Outcome.ofExcept ((execute FileTree.disk command).run tree).1

/-- A check of a file passes. -/
def Passes (tree : FileTree) (file : String) : Prop :=
  (outcomeOn tree (.check file)).exitStatus = 0

/-- A command fails with an error of emission. -/
def StopsInEmission (tree : FileTree) (command : Command) (reason : EmitError) : Prop :=
  ∃ output, (outcomeOn tree command).failure = some (.generate output (.emit reason))

theorem passes_iff {tree : FileTree} {file : String} :
    Passes tree file ↔ ∃ package, loadedAt tree file = .ok package := by
  have ran : (execute FileTree.disk (.check file)).run tree =
      ((loadedAt tree file).map verdict, tree) := FileTree.run_bind (loadValid_run tree file) _
  rw [Passes, outcomeOn, ran]
  rcases ok_or_error (loadedAt tree file) with ⟨package, loaded⟩ | ⟨failure, failed⟩
  · rw [loaded]
    exact ⟨fun _ => ⟨package, rfl⟩, fun _ => rfl⟩
  · obtain ⟨reason, rfl | rfl⟩ := loadedAt_error failed
    all_goals
      rw [failed]
      simp [Except.map, Outcome.ofExcept, Outcome.exitStatus, Failure.exitStatus]

/-- A generation stops in emission with the first error of the packages that are loaded. -/
theorem stopsInEmission_iff {tree : FileTree} {files : List String} {output preset : String}
    {indent : Option UInt64} {reason : EmitError} :
    StopsInEmission tree (.generate files output preset indent) reason ↔
      (∃ config, configure preset indent = .ok config) ∧
        ∃ packages, files.mapM (loadedAt tree) = .ok packages ∧
          First PackageError packages reason := by
  rw [StopsInEmission, outcomeOn, execute, generate]
  rcases configured : configure preset indent with failure | config
  · obtain ⟨-, rfl⟩ := configure_error_iff.mp configured
    rw [FileTree.run_pure]
    simp [Outcome.ofExcept]
  · simp only
    rw [FileTree.run_bind (loadAllValid_run tree files)]
    rcases loaded : files.mapM (loadedAt tree) with failure | packages
    · -- A file that does not load is no failure of generation.
      obtain ⟨file, -, failed⟩ := (mapM_error_iff.mp loaded).exists_mem
      obtain ⟨_, rfl | rfl⟩ := loadedAt_error failed
      all_goals
        simp only
        rw [FileTree.run_pure]
        simp [Outcome.ofExcept]
    · have reasons : ((Generation.emit FileTree.disk config output packages).run tree).1 =
          .error (.emit reason) ↔ First PackageError packages reason := Generation.emit_error_iff
      rcases emitted : (Generation.emit FileTree.disk config output packages).run tree with
        ⟨error | done, after⟩
      all_goals
        rw [emitted] at reasons
        simp only
        rw [FileTree.run_bind emitted]
        simp only
        rw [FileTree.run_pure]
        simp [Outcome.ofExcept, ← reasons]

/-- Once every file passes a check, a generation stops in emission exactly if some method
    declares the data flow. -/
theorem exists_stopsInEmission_iff {tree : FileTree} {files : List String}
    {output preset : String} {indent : Option UInt64} :
    (∃ reason, StopsInEmission tree (.generate files output preset indent) reason) ↔
      (∃ config, configure preset indent = .ok config) ∧ (∀ file ∈ files, Passes tree file) ∧
        ∃ file ∈ files, ∃ package, loadedAt tree file = .ok package ∧
          ∃ method ∈ package.methods, DeclaresDataFlow method := by
  simp only [stopsInEmission_iff, exists_and_left, passes_iff]
  refine and_congr_right fun _ => ?_
  rw [← exists_mapM_ok_iff]
  have offending : ∀ packages, files.mapM (loadedAt tree) = .ok packages →
      ((∃ reason, First PackageError packages reason) ↔
        ∃ file ∈ files, ∃ package, loadedAt tree file = .ok package ∧
          ∃ method ∈ package.methods, DeclaresDataFlow method) := by
    intro packages loaded
    rw [First.exists_iff]
    constructor
    · rintro ⟨package, member, error, failed⟩
      obtain ⟨file, inFiles, found⟩ := (mem_of_mapM_ok loaded package).mp member
      rw [packageError_of_valid (problems_of_loadedAt found)] at failed
      obtain ⟨method, inPackage, taken, -⟩ := failed.exists_mem
      exact ⟨file, inFiles, package, found, method, inPackage, taken⟩
    · rintro ⟨file, inFiles, package, found, method, inPackage, taken⟩
      refine ⟨package, (mem_of_mapM_ok loaded package).mpr ⟨file, inFiles, found⟩, ?_⟩
      exact PackageError.exists_iff.mpr ⟨method, inPackage, .inl taken⟩
  constructor
  · rintro ⟨reason, packages, loaded, failed⟩
    exact ⟨⟨packages, loaded⟩, (offending packages loaded).mp ⟨reason, failed⟩⟩
  · rintro ⟨⟨packages, loaded⟩, taken⟩
    obtain ⟨reason, failed⟩ := (offending packages loaded).mpr taken
    exact ⟨reason, packages, loaded, failed⟩

end CommandLine

/-! ## Valid packages -/

/-- A package with a choice of two options, the first of which has the given arguments. -/
def choicePackage (arguments : List Node) : Package where
  ident := ⟨"vision"⟩
  version := ⟨1, 0, 0⟩
  methods := [{
    ident := ⟨"blur"⟩
    options := [
      { ident := ⟨"manual"⟩, items := arguments.map .node },
      { ident := ⟨"allocate"⟩ }] }]

/-- A parameter with the spelling that is reserved for the choice of an option. -/
def flowParameter : Node :=
  .parameter { argument := { ident := dataFlow, nativeType := "int", wrapperType := "Int32" } }

/-- Validity does not suffice: a valid package may declare the data flow. -/
theorem reserved_spelling_accepted :
    ¬ ∀ (config : Config) (package : Package), Validation.problems package = [] →
      ∃ files, Emission.renderPackage config package = .ok files := by
  intro sufficient
  have valid : Validation.problems (choicePackage [flowParameter]) = [] := by decide
  obtain ⟨files, rendered⟩ := sufficient .standard _ valid
  have failed : PackageError (choicePackage [flowParameter]) (.reservedDataFlow ⟨"blur"⟩) :=
    .here (.reserved (by decide))
  rw [← Emission.renderPackage_error_iff .standard, rendered] at failed
  cases failed

/-- A valid package is rendered unless a method declares the data flow, and it fails with the
    error of the first such method. So a generation from files that pass a check stops in
    emission for this reason only. -/
theorem valid_emission (config : Config) (package : Package) (tree : FileTree)
    (files : List String) (output preset : String) (indent : Option UInt64) :
    (Validation.problems package = [] →
      ((∃ rendered, Emission.renderPackage config package = .ok rendered) ↔
          ∀ method ∈ package.methods, ¬ DeclaresDataFlow method) ∧
        ∀ error, Emission.renderPackage config package = .error error ↔
          First ReservedError package.methods error) ∧
      ((∃ reason, CommandLine.StopsInEmission tree (.generate files output preset indent) reason) ↔
        (∃ chosen, CommandLine.configure preset indent = .ok chosen) ∧
          (∀ file ∈ files, CommandLine.Passes tree file) ∧
          ∃ file ∈ files, ∃ found, CommandLine.loadedAt tree file = .ok found ∧
            ∃ method ∈ found.methods, DeclaresDataFlow method) := by
  refine ⟨fun valid => ?_, CommandLine.exists_stopsInEmission_iff⟩
  have errors : ∀ error, Emission.renderPackage config package = .error error ↔
      First ReservedError package.methods error := fun error =>
    (Emission.renderPackage_error_iff config).trans (packageError_of_valid valid)
  refine ⟨?_, errors⟩
  have offending : (∃ error, First ReservedError package.methods error) ↔
      ∃ method ∈ package.methods, DeclaresDataFlow method := by
    simp only [First.exists_iff, ReservedError.exists_iff]
  simp only [← errors] at offending
  rcases ok_or_error (Emission.renderPackage config package) with ⟨files, done⟩ | ⟨error, failed⟩
  · simp only [done, reduceCtorEq, exists_false, false_iff, not_exists, not_and] at offending
    exact ⟨fun _ => offending, fun _ => ⟨files, done⟩⟩
  · obtain ⟨method, member, taken⟩ := offending.mp ⟨error, failed⟩
    rw [failed]
    exact ⟨nofun, fun free => absurd taken (free method member)⟩

/-- Without that parameter the package is rendered. -/
theorem choicePackage_rendered :
    Validation.problems (choicePackage []) = [] ∧
      ∃ files, Emission.renderPackage .standard (choicePackage []) = .ok files := by
  have valid : Validation.problems (choicePackage []) = [] := by decide
  have rendered := (valid_emission .standard (choicePackage []) default [] "" "" none).1 valid
  exact ⟨valid, rendered.1.mpr (by decide)⟩

end OperatorGen
