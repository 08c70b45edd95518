import OperatorGen.Proofs.CommandLine.Writing
import OperatorGen.Proofs.Emission.Acceptance

/-!
# Outcomes of a generation

A generation goes through phases: the preset, the files in the order of the command line,
the rendering of all methods, and the writing. It ends in the first that fails, and up to
the writing it leaves the file tree as it is (`generate_run`).
-/
namespace OperatorGen.CommandLine

/-- How a generation on a file tree ends, with its result and with the tree that it leaves.
    Each way of ending says that the phases before have passed. -/
inductive Generates (tree : FileTree) (files : List String) (output preset : String)
    (indent : Option UInt64) : Except Failure String → FileTree → Prop
  | unknownPreset (unknown : Config.preset? preset = none) :
    Generates tree files output preset indent (.error (.unknownPreset preset)) tree
  | unloadable {config : Config} {failure : Failure} (known : configure preset indent = .ok config)
      (first : First (Unloadable tree) files failure) :
    Generates tree files output preset indent (.error failure) tree
  | unrenderable {config : Config} {packages : List Package} {reason : EmitError}
      (known : configure preset indent = .ok config)
      (loaded : List.Forall₂ (Loads tree) files packages)
      (first : First PackageError packages reason) :
    Generates tree files output preset indent (.error (.generate output (.emit reason))) tree
  | written {config : Config} {packages : List Package} {rendered : List Emission.File}
      {after : FileTree} (known : configure preset indent = .ok config)
      (loaded : List.Forall₂ (Loads tree) files packages)
      (renders : Emission.renderPackages config packages = .ok rendered)
      (writes : Generation.Writes (rendered.map (.under output)) tree (.ok ()) after) :
    Generates tree files output preset indent (.ok "") after
  | unwritable {config : Config} {packages : List Package} {rendered : List Emission.File}
      {reason : SystemError} {after : FileTree} (known : configure preset indent = .ok config)
      (loaded : List.Forall₂ (Loads tree) files packages)
      (renders : Emission.renderPackages config packages = .ok rendered)
      (writes : Generation.Writes (rendered.map (.under output)) tree (.error (.system reason))
        after) :
    Generates tree files output preset indent (.error (.generate output (.system reason))) after

/-- A generation goes through its phases in order. It leaves the tree as it is unless all
    files load and all methods render, and its failure is that of the preset, or else that of
    the first file that does not load, or else that of the first method that does not render.
    After that it writes the rendered files in order, up to the first that the tree refuses. -/
theorem generate_run (tree : FileTree) (files : List String) (output preset : String)
    (indent : Option UInt64) :
    Generates tree files output preset indent
      ((execute FileTree.disk (.generate files output preset indent)).run tree).1
      ((execute FileTree.disk (.generate files output preset indent)).run tree).2 := by
  rw [execute, generate]
  rcases known : configure preset indent with failure | config
  · obtain ⟨unknown, rfl⟩ := configure_error_iff.mp known
    exact .unknownPreset unknown
  simp only
  rw [FileTree.run_bind (loadAllValid_run tree files)]
  rcases loading : files.mapM (loadedAt tree) with failure | packages
  · rw [mapM_error_iff] at loading
    exact .unloadable known ((First.congr fun _ _ _ => loadedAt_error_iff).mp loading)
  have loaded : List.Forall₂ (Loads tree) files packages :=
    (mapM_ok_iff.mp loading).imp fun _ _ => loadedAt_ok_iff.mp
  simp only
  rcases renders : Emission.renderPackages config packages with reason | rendered
  · have emitted : (Generation.emit FileTree.disk config output packages).run tree =
        (.error (.emit reason), tree) := by rw [Generation.emit, renders]; rfl
    rw [FileTree.run_bind emitted]
    exact .unrenderable known loaded ((Emission.renderPackages_error_iff config).mp renders)
  have writes := Generation.writes_run output rendered tree
  have emitted : (Generation.emit FileTree.disk config output packages).run tree =
      (Generation.writeFiles FileTree.disk output rendered).run tree := by
    rw [Generation.emit, renders]
  rcases written : (Generation.writeFiles FileTree.disk output rendered).run tree with
    ⟨reason | done, after⟩
  · obtain ⟨system, rfl⟩ := Generation.writeFiles_error (congrArg Prod.fst written)
    rw [written] at writes emitted
    rw [FileTree.run_bind emitted]
    exact .unwritable known loaded renders writes
  · rw [written] at writes emitted
    rw [FileTree.run_bind emitted]
    exact .written known loaded renders writes

end OperatorGen.CommandLine
