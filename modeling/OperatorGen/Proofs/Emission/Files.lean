import OperatorGen.Emission.File
import OperatorGen.Proofs.FirstError

/-!
# Rendered files

Every method of a package has a file of its own in the result, in the order of the methods,
and the files of several packages follow one another (`renderPackages_files`).
-/
namespace OperatorGen.Emission

/-- The methods of packages, each with its package. -/
def operators (packages : List Package) : List (Package × Method) :=
  packages.flatMap fun package => package.methods.map fun method => (package, method)

theorem mem_operators {packages : List Package} {operator : Package × Method} :
    operator ∈ operators packages ↔ operator.1 ∈ packages ∧ operator.2 ∈ operator.1.methods := by
  simp only [operators, List.mem_flatMap, List.mem_map]
  constructor
  · rintro ⟨package, inPackages, method, inMethods, rfl⟩
    exact ⟨inPackages, inMethods⟩
  · rintro ⟨inPackages, inMethods⟩
    exact ⟨operator.1, inPackages, operator.2, inMethods, rfl⟩

/-- A file is the one that is rendered for a method. -/
def Renders (config : Config) (operator : Package × Method) (file : File) : Prop :=
  file.path = filePath operator.1 operator.2 ∧
    renderMethod config operator.1 operator.2 = .ok file.contents

/-- The file that is rendered for a method. -/
def methodFile (config : Config) (operator : Package × Method) : Except EmitError File := do
  let contents ← renderMethod config operator.1 operator.2
  .ok ⟨filePath operator.1 operator.2, contents⟩

theorem methodFile_ok_iff {config : Config} {operator : Package × Method} {file : File} :
    methodFile config operator = .ok file ↔ Renders config operator file := by
  rw [methodFile, bind_ok_iff, Renders]
  constructor
  · rintro ⟨contents, done, same⟩
    cases same
    exact ⟨rfl, done⟩
  · rintro ⟨path, done⟩
    exact ⟨file.contents, done, by rw [← path]⟩

theorem renderMethods_eq (config : Config) (package : Package) (methods : List Method) :
    renderMethods package (renderMethod config package) methods =
      (methods.map fun method => (package, method)).mapM (methodFile config) := by
  induction methods with
  | nil => rfl
  | cons method rest ih =>
    rw [renderMethods, ih, List.map_cons, List.mapM_cons, methodFile]
    cases renderMethod config package method <;> rfl

/-- The methods of packages are rendered one after another. -/
theorem renderPackages_eq (config : Config) (packages : List Package) :
    renderPackages config packages = (operators packages).mapM (methodFile config) := by
  induction packages with
  | nil => rfl
  | cons package rest ih =>
    have split : operators (package :: rest) =
        (package.methods.map fun method => (package, method)) ++ operators rest := rfl
    rw [renderPackages, renderPackage, renderMethods_eq, ih, split, List.mapM_append]
    rfl

/-- Two ways to render the methods of a package that are alike for each method. -/
theorem renderMethods_alike {ε : Type} {package : Package} {render other : Method → Except ε String}
    {related : Method → String → String → Prop} {methods : List Method}
    (each : ∀ method ∈ methods, Alike (related method) (render method) (other method)) :
    Alike (List.Forall₂ fun file otherFile : File => ∃ method ∈ methods,
        file.path = filePath package method ∧ otherFile.path = filePath package method ∧
        related method file.contents otherFile.contents)
      (renderMethods package render methods) (renderMethods package other methods) := by
  induction methods with
  | nil => exact .ok .nil
  | cons method rest ih =>
    rw [List.forall_mem_cons] at each
    refine each.1.bind fun contents otherContents made => ?_
    refine (ih each.2).bind fun files otherFiles others => .ok (.cons ?_ (others.imp ?_))
    · exact ⟨method, List.mem_cons_self, rfl, rfl, made⟩
    · rintro file otherFile ⟨first, member, found⟩
      exact ⟨first, List.mem_cons_of_mem method member, found⟩

theorem renderMethods_files {config : Config} {package : Package} {methods : List Method}
    {files : List File}
    (rendered : renderMethods package (renderMethod config package) methods = .ok files) :
    List.Forall₂ (Renders config) (methods.map fun method => (package, method)) files := by
  rw [renderMethods_eq, mapM_ok_iff] at rendered
  exact rendered.imp fun _ _ => methodFile_ok_iff.mp

/-- There is one file for each method of a package, in order. -/
theorem renderPackage_files {config : Config} {package : Package} {files : List File}
    (rendered : renderPackage config package = .ok files) :
    List.Forall₂ (fun method file => method ∈ package.methods ∧
      Renders config (package, method) file) package.methods files := by
  refine (List.forall₂_and_left _ _).mpr ⟨fun _ member => member, ?_⟩
  exact List.forall₂_map_left_iff.mp (renderMethods_files rendered)

/-- There is one file for each method, in order. -/
theorem renderPackages_files {config : Config} {packages : List Package} {files : List File}
    (rendered : renderPackages config packages = .ok files) :
    List.Forall₂ (Renders config) (operators packages) files := by
  rw [renderPackages_eq, mapM_ok_iff] at rendered
  exact rendered.imp fun _ _ => methodFile_ok_iff.mp

end OperatorGen.Emission
