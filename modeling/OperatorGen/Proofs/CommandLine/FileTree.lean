import OperatorGen.CommandLine.Run
import OperatorGen.Proofs.FirstError

/-!
# Runs on a file tree

What a run on a file tree loads (`loadedAt`) depends on the file tree only, which loading
leaves as it is. A file loads if it holds a valid package (`loadedAt_ok_iff`), and otherwise
the failure tells what it lacks (`loadedAt_error_iff`).
-/
namespace OperatorGen

/-- A sequence runs its second part where the first has ended. -/
theorem FileTree.run_bind {α β : Type} {first : StateM FileTree α} {tree between : FileTree}
    {result : α} (ran : first.run tree = (result, between)) (second : α → StateM FileTree β) :
    (first >>= second).run tree = (second result).run between := by
  rw [StateT.run_bind, ran]
  rfl

theorem FileTree.run_pure {α : Type} (result : α) (tree : FileTree) :
    (pure result : StateM FileTree α).run tree = (result, tree) := rfl

namespace Generation

theorem validate_ok_iff {package : Package} :
    validate package = .ok () ↔ Validation.problems package = [] := by
  unfold validate
  split <;> simp_all

theorem validate_error_iff {package : Package} {error : Error} :
    validate package = .error error ↔
      Validation.problems package ≠ [] ∧ error = .invalid (Validation.problems package) := by
  unfold validate
  split
  · next valid => simp [valid]
  · next invalid =>
    rw [Except.error.injEq]
    exact ⟨fun same => ⟨invalid, same.symm⟩, fun failed => failed.2.symm⟩

end Generation

namespace CommandLine

/-- The valid package in the file at a path of a file tree. -/
def loadedAt (tree : FileTree) (path : String) : Except Failure Package := do
  let text ← (tree.read path).mapError fun reason => Failure.load path (.system reason)
  let package ← (Generation.parse text path).mapError (Failure.load path)
  (Generation.validate package).mapError (Failure.check path)
  .ok package

/-- Loading leaves the file tree as it is. -/
theorem loadValid_run (tree : FileTree) (path : String) :
    (loadValid FileTree.disk path).run tree = (loadedAt tree path, tree) := by
  have loaded : (Generation.load FileTree.disk path).run tree =
      ((tree.read path).mapError Error.system >>= fun text => Generation.parse text path, tree) := by
    have read : (FileTree.disk.read path).run tree = (tree.read path, tree) := rfl
    rw [Generation.load, FileTree.run_bind read]
    cases tree.read path <;> rfl
  rw [loadValid, FileTree.run_bind loaded, loadedAt]
  cases tree.read path with
  | error reason => rfl
  | ok text =>
    simp only [Except.mapError, bind, Except.bind]
    cases Generation.parse text path with
    | error reason => rfl
    | ok package =>
      simp only
      cases Generation.validate package <;> rfl

theorem loadAllValid_run (tree : FileTree) (paths : List String) :
    (loadAllValid FileTree.disk paths).run tree = (paths.mapM (loadedAt tree), tree) := by
  induction paths with
  | nil => rfl
  | cons path rest ih =>
    rw [loadAllValid, FileTree.run_bind (loadValid_run tree path), List.mapM_cons]
    cases loadedAt tree path with
    | error failure => rfl
    | ok package =>
      simp only
      rw [FileTree.run_bind ih]
      cases rest.mapM (loadedAt tree) <;> rfl

/-- The file at a path describes a valid package. -/
def Loads (tree : FileTree) (path : String) (package : Package) : Prop :=
  ∃ text, tree.read path = .ok text ∧ Package.parse text = .ok package ∧
    Validation.problems package = []

/-- A file does not load: it cannot be read, its text describes no package, or the package
    is not valid. -/
inductive Unloadable (tree : FileTree) (path : String) : Failure → Prop
  | unreadable {reason : SystemError} (failed : tree.read path = .error reason) :
    Unloadable tree path (.load path (.system reason))
  | malformed {text : String} {reason : Json.DecodeError} (readable : tree.read path = .ok text)
      (failed : Package.parse text = .error reason) :
    Unloadable tree path (.load path (.parse path reason))
  | invalid {text : String} {package : Package} (readable : tree.read path = .ok text)
      (parsed : Package.parse text = .ok package) (failed : Validation.problems package ≠ []) :
    Unloadable tree path (.check path (.invalid (Validation.problems package)))

section
variable {tree : FileTree} {path : String}

theorem loadedAt_ok_iff {package : Package} :
    loadedAt tree path = .ok package ↔ Loads tree path package := by
  simp only [loadedAt, Generation.parse, bind_ok_iff, mapError_ok_iff, Loads]
  constructor
  · rintro ⟨text, readable, found, parsed, _, valid, same⟩
    cases same
    exact ⟨text, readable, parsed, Generation.validate_ok_iff.mp valid⟩
  · rintro ⟨text, readable, parsed, valid⟩
    exact ⟨text, readable, package, parsed, (), Generation.validate_ok_iff.mpr valid, rfl⟩

theorem loadedAt_error_iff {failure : Failure} :
    loadedAt tree path = .error failure ↔ Unloadable tree path failure := by
  simp only [loadedAt, Generation.parse, bind_error_iff, mapError_error_iff, mapError_ok_iff,
    Generation.validate_error_iff]
  constructor
  · rintro (⟨reason, failed, rfl⟩ | ⟨text, readable, ⟨reason, ⟨fault, failed, rfl⟩, rfl⟩ |
      ⟨package, parsed, ⟨reason, ⟨failed, rfl⟩, rfl⟩ | ⟨_, _, impossible⟩⟩⟩)
    · exact .unreadable failed
    · exact .malformed readable failed
    · exact .invalid readable parsed failed
    · cases impossible
  · intro unloadable
    cases unloadable with
    | unreadable failed => exact .inl ⟨_, failed, rfl⟩
    | malformed readable failed => exact .inr ⟨_, readable, .inl ⟨_, ⟨_, failed, rfl⟩, rfl⟩⟩
    | invalid readable parsed failed =>
      exact .inr ⟨_, readable, .inr ⟨_, parsed, .inl ⟨_, ⟨failed, rfl⟩, rfl⟩⟩⟩

theorem problems_of_loadedAt {package : Package} (loaded : loadedAt tree path = .ok package) :
    Validation.problems package = [] := by
  obtain ⟨text, -, -, valid⟩ := loadedAt_ok_iff.mp loaded
  exact valid

/-- What cannot be loaded is no failure of generation. -/
theorem loadedAt_error {failure : Failure} (failed : loadedAt tree path = .error failure) :
    ∃ reason, failure = .load path reason ∨ failure = .check path reason := by
  cases loadedAt_error_iff.mp failed with
  | unreadable => exact ⟨_, .inl rfl⟩
  | malformed => exact ⟨_, .inl rfl⟩
  | invalid => exact ⟨_, .inr rfl⟩

end

theorem configure_error_iff {preset : String} {indent : Option UInt64} {failure : Failure} :
    configure preset indent = .error failure ↔
      Config.preset? preset = none ∧ failure = .unknownPreset preset := by
  unfold configure
  split
  · next unknown => simp [unknown, eq_comm]
  · next config known => simp [known]

end CommandLine
end OperatorGen
