import OperatorGen.Proofs.CommandLine.FileTree
import OperatorGen.Proofs.FileTree.Changes

/-!
# Writing files

Files are written in order, each after the directories for it have been made. The writing
goes on to the first file that the tree refuses (`writes_run`).
-/
namespace OperatorGen

/-- A generated file with its path inside a directory. -/
def Emission.File.under (output : String) (file : Emission.File) : Emission.File :=
  ⟨Path.join output file.path, file.contents⟩

/-- A tree refuses a file: a directory for it cannot be made, or it cannot be opened. -/
def FileTree.Refuses (tree : FileTree) (file : Emission.File) (reason : SystemError) : Prop :=
  (tree.makeDirectories file.path).2 = .error reason ∨
    ∃ made, tree.makeDirectories file.path = (made, .ok ()) ∧
      made.write file.path file.contents = .error reason

namespace Generation

/-- How the writing of files ends: all are written, or those before the first that is refused,
    on whose way directories may have been made. -/
inductive Writes (files : List Emission.File) (tree : FileTree) :
    Except Error Unit → FileTree → Prop
  | all {after : FileTree} (changes : FileTree.Changes files files tree after) :
    Writes files tree (.ok ()) after
  | refused {written rest : List Emission.File} {file : Emission.File} {reason : SystemError}
      {reached after : FileTree} (split : files = written ++ file :: rest)
      (reaches : FileTree.Changes written written tree reached)
      (refuses : reached.Refuses file reason)
      (changes : FileTree.Changes written (written ++ [file]) tree after) :
    Writes files tree (.error (.system reason)) after

/-- The tree refuses the first file. -/
theorem Writes.head {file : Emission.File} {files : List Emission.File} {tree after : FileTree}
    {reason : SystemError} (refuses : tree.Refuses file reason)
    (changes : FileTree.Changes [] [file] tree after) :
    Writes (file :: files) tree (.error (.system reason)) after :=
  .refused (List.nil_append (file :: files)).symm (.refl tree) refuses changes

/-- The first file is written, and then the others. -/
theorem Writes.cons {file : Emission.File} {files : List Emission.File}
    {tree between after : FileTree} {result : Except Error Unit}
    (stored : FileTree.Changes [file] [file] tree between)
    (writes : Writes files between result after) : Writes (file :: files) tree result after := by
  cases writes with
  | all changes => exact .all (stored.append changes)
  | refused split reaches refuses changes =>
    rw [split]
    exact .refused List.cons_append.symm (stored.append reaches) refuses (stored.append changes)

theorem makeDirectories_run (tree : FileTree) (path : String) :
    (FileTree.disk.makeDirectories path).run tree =
      ((tree.makeDirectories path).2, (tree.makeDirectories path).1) := rfl

theorem write_run_ok {tree changed : FileTree} {path text : String}
    (done : tree.write path text = .ok changed) :
    (FileTree.disk.write path text).run tree = (.ok (), changed) := by
  show FileTree.disk.write path text tree = _
  simp only [FileTree.disk, done]

theorem write_run_error {tree : FileTree} {path text : String} {reason : SystemError}
    (failed : tree.write path text = .error reason) :
    (FileTree.disk.write path text).run tree = (.error reason, tree) := by
  show FileTree.disk.write path text tree = _
  simp only [FileTree.disk, failed]

/-- Files are written in order, up to the first that the tree refuses. -/
theorem writes_run (output : String) (files : List Emission.File) (tree : FileTree) :
    Writes (files.map (Emission.File.under output)) tree
      ((writeFiles FileTree.disk output files).run tree).1
      ((writeFiles FileTree.disk output files).run tree).2 := by
  induction files generalizing tree with
  | nil => exact .all (.refl tree)
  | cons file rest ih =>
    rw [writeFiles, FileTree.run_bind (makeDirectories_run tree _), List.map_cons]
    have way : FileTree.Changes [] [file.under output] tree
        (tree.makeDirectories (Path.join output file.path)).1 :=
      .of_grown (FileTree.grown_makeDirectories tree _)
    rcases made : tree.makeDirectories (Path.join output file.path) with ⟨between, reason | _⟩
    · rw [made] at way
      have refuses : tree.Refuses (file.under output) reason := .inl (congrArg Prod.snd made)
      exact .head refuses way
    · rw [made] at way
      rcases wrote : between.write (Path.join output file.path) file.contents with reason | changed
      · have refuses : tree.Refuses (file.under output) reason := .inr ⟨between, made, wrote⟩
        simp only [FileTree.run_bind (write_run_error wrote)]
        exact .head refuses way
      · have filled : between.write (file.under output).path (file.under output).contents =
            .ok changed := wrote
        have stored : FileTree.Changes [file.under output] [file.under output] tree changed :=
          way.append (FileTree.changes_write filled)
        simp only [FileTree.run_bind (write_run_ok wrote)]
        exact .cons stored (ih changed)

/-- An error of writing is one of the system. -/
theorem writeFiles_error {output : String} {files : List Emission.File} {tree : FileTree}
    {error : Error} (failed : ((writeFiles FileTree.disk output files).run tree).1 = .error error) :
    ∃ reason, error = .system reason := by
  have writes := writes_run output files tree
  rw [failed] at writes
  cases writes with
  | refused => exact ⟨_, rfl⟩

end Generation
end OperatorGen
