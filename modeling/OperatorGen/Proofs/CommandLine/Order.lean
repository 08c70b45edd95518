import OperatorGen.Proofs.CommandLine.Confinement
import OperatorGen.Proofs.FileTree.Storing
import OperatorGen.Proofs.Success
import Mathlib.Data.List.Nodup

/-!
# The order of packages

Packages are emitted one after another, and the directories that one needs may be made for
another. Still their order decides neither whether a tree takes all files nor what it holds in
the end. A tree takes files if it has room for each of them and none of them lies where another
passes, which says nothing about an order (`Takes`, `writeFiles_ok_iff`). What has become of the
tree is then decided place by place: a file is where it was written, a directory is wherever a
file passes, and nothing else has changed (`same_of_changes`).
-/
namespace OperatorGen

namespace FileTree

/-! ## Trees with room for files -/

/-- Two trees hold the same everywhere. -/
structure Same (tree other : FileTree) : Prop where
  workingDirectory : tree.workingDirectory = other.workingDirectory
  places : ∀ place, tree.at? place = other.at? place

/-- A tree has room for files: for each, and none of them lies where one of them passes. -/
structure Takes (tree : FileTree) (files : List Emission.File) : Prop where
  admits : ∀ file ∈ files, tree.Admits file.path
  apart : ∀ file ∈ files, ∀ other ∈ files, ¬ tree.OnTheWay file.path (tree.placeOf other.path)

variable {tree between after other : FileTree} {files others first rest : List Emission.File}

theorem Takes.perm (takes : tree.Takes files) (order : files.Perm others) : tree.Takes others where
  admits file member := takes.admits file (order.mem_iff.mpr member)
  apart file member other member' :=
    takes.apart file (order.mem_iff.mpr member) other (order.mem_iff.mpr member')

/-- Where some of the files have been written, there is room for the others. -/
theorem Takes.of_changes (takes : tree.Takes (first ++ rest))
    (changes : Changes first first tree between) : between.Takes rest := by
  have way : ∀ {path place}, between.OnTheWay path place ↔ tree.OnTheWay path place :=
    onTheWay_congr changes.workingDirectory
  have places := placeOf_congr changes.workingDirectory
  refine ⟨fun file inRest => ?_, fun file inRest other inRest' passed => ?_⟩
  · have member : file ∈ first ++ rest := List.mem_append_right _ inRest
    have room := takes.admits file member
    refine ⟨room.checked, room.short, ?_, fun place passed contents held => ?_, fun held => ?_⟩
    · rw [start_congr changes.workingDirectory]
      exact changes.directories _ room.start
    · rw [way] at passed
      by_cases written : ∃ other ∈ first, tree.placeOf other.path = place
      · -- A file that was written does not lie on the way.
        obtain ⟨other, inFirst, rfl⟩ := written
        exact takes.apart file member other (List.mem_append_left _ inFirst) passed
      · rcases changes.others place fun other inFirst here => written ⟨other, inFirst, here⟩ with
          same | ⟨-, directory, -⟩
        · exact room.way place passed contents (same.symm.trans held)
        · rw [directory] at held
          cases held
    · rw [places] at held
      by_cases written : ∃ other ∈ first, tree.placeOf other.path = tree.placeOf file.path
      · obtain ⟨other, inFirst, here⟩ := written
        obtain ⟨last, -, there, stored⟩ := changes.exists_last inFirst
        rw [there, here, held] at stored
        cases stored
      · rcases changes.others _ fun other inFirst here => written ⟨other, inFirst, here⟩ with
          same | ⟨-, -, other, inFirst, passed⟩
        · exact room.target (same.symm.trans held)
        · exact takes.apart other (List.mem_append_left _ inFirst) file member passed
  · rw [way, places] at passed
    exact takes.apart file (List.mem_append_right _ inRest) other (List.mem_append_right _ inRest')
      passed

/-- A tree in which files have been written had room for them, if it had a directory for them to
    start from. -/
theorem Takes.of_written (changes : Changes files files tree after)
    (start : ∀ file ∈ files, tree.at? (tree.start file.path) = some .directory) :
    tree.Takes files := by
  -- In the end a file is at its place.
  have stored : ∀ file ∈ files, ∃ contents,
      after.at? (tree.placeOf file.path) = some (.file contents) := by
    intro file member
    obtain ⟨last, -, here, stored⟩ := changes.exists_last member
    exact ⟨_, here ▸ stored⟩
  refine ⟨fun file member => ?_, fun file member other member' passed => ?_⟩
  · obtain ⟨checked, followed⟩ := resolve_ok_iff.mp (changes.reached file member)
    refine ⟨checked, short_of_follow followed, start file member,
      fun place passed contents held => ?_, fun held => ?_⟩
    · have directory := changes.parents file member place passed
      by_cases written : ∃ other ∈ files, tree.placeOf other.path = place
      · obtain ⟨other, member', rfl⟩ := written
        obtain ⟨contents, held⟩ := stored other member'
        rw [directory] at held
        cases held
      · have kept := changes.keeps
          (fun other member' here => written ⟨other, member', here⟩) held
        rw [directory] at kept
        cases kept
    · obtain ⟨contents, there⟩ := stored file member
      rw [changes.directories _ held] at there
      cases there
  · obtain ⟨contents, there⟩ := stored other member'
    rw [changes.parents file member _ passed] at there
    cases there

/-! ## What files change -/

/-- A file that has its place to itself holds its text. -/
theorem Changes.text (changes : Changes files files tree after)
    (distinct : (files.map fun file => tree.placeOf file.path).Nodup) {file : Emission.File}
    (member : file ∈ files) :
    after.at? (tree.placeOf file.path) = some (.file (.text file.contents)) := by
  obtain ⟨last, member', here, stored⟩ := changes.exists_last member
  obtain rfl : last = file := List.inj_on_of_nodup_map distinct member' member here
  exact stored

/-- Files that are written to places of their own leave the same behind in any order. -/
theorem same_of_changes (order : files.Perm others)
    (distinct : (files.map fun file => tree.placeOf file.path).Nodup)
    (changes : Changes files files tree after) (changes' : Changes others others tree other) :
    after.Same other := by
  have distinct' : (others.map fun file => tree.placeOf file.path).Nodup :=
    (order.map _).nodup_iff.mp distinct
  refine ⟨changes.workingDirectory.trans changes'.workingDirectory.symm, fun place => ?_⟩
  by_cases written : ∃ file ∈ files, tree.placeOf file.path = place
  · obtain ⟨file, member, rfl⟩ := written
    rw [changes.text distinct member, changes'.text distinct' (order.mem_iff.mp member)]
  · by_cases passed : ∃ file ∈ files, tree.OnTheWay file.path place
    · obtain ⟨file, member, way⟩ := passed
      rw [changes.parents file member place way,
        changes'.parents file (order.mem_iff.mp member) place way]
    · -- Nothing has changed here.
      have first : after.at? place = tree.at? place :=
        (changes.others place fun file member here => written ⟨file, member, here⟩).resolve_right
          fun ⟨_, _, file, member, way⟩ => passed ⟨file, member, way⟩
      have second : other.at? place = tree.at? place :=
        (changes'.others place fun file member here =>
          written ⟨file, order.mem_iff.mpr member, here⟩).resolve_right
            fun ⟨_, _, file, member, way⟩ => passed ⟨file, order.mem_iff.mpr member, way⟩
      rw [first, second]

end FileTree

namespace Generation

/-! ## Writing files in any order -/

variable {config : Config} {output : String} {tree after : FileTree} {files : List Emission.File}

/-- Files are written if the first can be stored and then the others. -/
theorem writeFiles_cons_ok_iff {file : Emission.File} {rest : List Emission.File} :
    (writeFiles FileTree.disk output (file :: rest)).run tree = (.ok (), after) ↔
      ∃ made changed, tree.makeDirectories (file.under output).path = (made, .ok ()) ∧
        made.write (file.under output).path file.contents = .ok changed ∧
          (writeFiles FileTree.disk output rest).run changed = (.ok (), after) := by
  rw [writeFiles, FileTree.run_bind (makeDirectories_run tree _)]
  simp only [Emission.File.under]
  rcases done : tree.makeDirectories (Path.join output file.path) with ⟨made, reason | _⟩
  · constructor
    · intro ended
      cases ended
    · rintro ⟨_, _, same, -⟩
      cases same
  · rcases wrote : made.write (Path.join output file.path) file.contents with reason | changed
    · simp only [FileTree.run_bind (write_run_error wrote)]
      constructor
      · intro ended
        cases ended
      · rintro ⟨_, _, same, wrote', -⟩
        cases same
        rw [wrote] at wrote'
        cases wrote'
    · simp only [FileTree.run_bind (write_run_ok wrote)]
      simp [wrote]

/-- Files are all written into one directory if and only if the tree has room for them. -/
theorem writeFiles_ok_iff {home : List String}
    (start : ∀ file ∈ files, tree.start (file.under output).path = home)
    (named : ∀ file ∈ files, Path.steps (file.under output).path ≠ []) :
    (∃ after, (writeFiles FileTree.disk output files).run tree = (.ok (), after)) ↔
      tree.Takes (files.map (.under output)) := by
  constructor
  · rintro ⟨after, written⟩
    have writes := writes_run output files tree
    rw [written] at writes
    cases writes with
    | all changes =>
      refine .of_written changes ?_
      cases files with
      | nil => simp
      | cons file rest =>
        -- All start where the first could be stored.
        obtain ⟨made, changed, done, wrote, -⟩ := writeFiles_cons_ok_iff.mp written
        have there := FileTree.start_of_stored done wrote (named file List.mem_cons_self)
        rw [start file List.mem_cons_self] at there
        intro other member
        obtain ⟨source, inFiles, rfl⟩ := List.mem_map.mp member
        rw [start source inFiles, there]
  · intro takes
    induction files generalizing tree with
    | nil => exact ⟨tree, rfl⟩
    | cons file rest ih =>
      rw [List.map_cons] at takes
      have member : file.under output ∈ file.under output :: rest.map (.under output) :=
        List.mem_cons_self
      obtain ⟨made, changed, done, wrote⟩ := (takes.admits _ member).write
        (takes.apart _ member _ member) file.contents
      have changes : FileTree.Changes [file.under output] [file.under output] tree changed := by
        have way : FileTree.Changes [] [file.under output] tree
            (tree.makeDirectories (file.under output).path).1 :=
          .of_grown (FileTree.grown_makeDirectories tree _)
        rw [done] at way
        exact way.append (FileTree.changes_write wrote)
      have both : tree.Takes ([file.under output] ++ rest.map (.under output)) := takes
      have later : changed.Takes (rest.map (.under output)) := both.of_changes changes
      obtain ⟨after, written⟩ := ih
        (fun other member => (FileTree.start_congr changes.workingDirectory _).trans
          (start other (.tail _ member)))
        (fun other member => named other (.tail _ member)) later
      exact ⟨after, writeFiles_cons_ok_iff.mpr ⟨made, changed, done, wrote, written⟩⟩

/-- Files that are written to places of their own can be written in any order. -/
theorem writeFiles_perm {home : List String} {others : List Emission.File}
    (start : ∀ file ∈ files, tree.start (file.under output).path = home)
    (named : ∀ file ∈ files, Path.steps (file.under output).path ≠ [])
    (distinct : (files.map fun file => tree.placeOf (file.under output).path).Nodup)
    (order : files.Perm others)
    (written : (writeFiles FileTree.disk output files).run tree = (.ok (), after)) :
    ∃ after', (writeFiles FileTree.disk output others).run tree = (.ok (), after') ∧
      after.Same after' := by
  have takes := (writeFiles_ok_iff start named).mp ⟨after, written⟩
  obtain ⟨after', written'⟩ := (writeFiles_ok_iff
    (fun file member => start file (order.mem_iff.mpr member))
    (fun file member => named file (order.mem_iff.mpr member))).mpr (takes.perm (order.map _))
  refine ⟨after', written', ?_⟩
  have writes := writes_run output files tree
  have writes' := writes_run output others tree
  rw [written] at writes
  rw [written'] at writes'
  cases writes with
  | all changes =>
    cases writes' with
    | all changes' =>
      refine FileTree.same_of_changes (order.map _) ?_ changes changes'
      rwa [List.map_map]

/-! ## Emitting packages in any order -/

variable {packages others : List Package}

theorem emit_ok_iff :
    (emit FileTree.disk config output packages).run tree = (.ok (), after) ↔
      ∃ files, Emission.renderPackages config packages = .ok files ∧
        (writeFiles FileTree.disk output files).run tree = (.ok (), after) := by
  rw [emit]
  rcases Emission.renderPackages config packages with reason | files
  · constructor
    · intro ended
      cases ended
    · rintro ⟨_, same, -⟩
      cases same
  · simp

/-- Files of different paths lie at different places. -/
theorem places_nodup (named : ∀ operator ∈ Emission.operators packages, Named operator)
    (distinct : ((Emission.operators packages).map fun operator =>
      Emission.filePath operator.1 operator.2).Nodup)
    (rendered : List.Forall₂ (Emission.Renders config) (Emission.operators packages) files) :
    (files.map fun file => tree.placeOf (file.under output).path).Nodup := by
  have places : (Emission.operators packages).map (fun operator =>
      tree.placeOf (sourcePath output operator)) =
        files.map fun file => tree.placeOf (file.under output).path := by
    rw [← List.forall₂_eq_eq_eq, List.forall₂_map_left_iff, List.forall₂_map_right_iff]
    have both := (List.forall₂_and_left _ _).mpr ⟨named, rendered⟩
    exact both.imp fun operator file ⟨ofOperator, renders⟩ => by
      rw [path_of_renders ofOperator renders]
  rw [← places]
  refine distinct.of_map.map_on fun operator member other member' same => ?_
  have shared := shares_of_placeOf (named operator member) (named other member') same
  apply List.inj_on_of_nodup_map distinct member member'
  show Emission.filePath operator.1 operator.2 = Emission.filePath other.1 other.2
  rw [Emission.filePath, Emission.filePath, shared.1, shared.2]

/-- Methods with files of their own can be emitted in any order. -/
theorem emit_reordered (named : ∀ operator ∈ Emission.operators packages, Named operator)
    (distinct : ((Emission.operators packages).map fun operator =>
      Emission.filePath operator.1 operator.2).Nodup)
    (order : (Emission.operators packages).Perm (Emission.operators others))
    (emitted : (emit FileTree.disk config output packages).run tree = (.ok (), after)) :
    ∃ after', (emit FileTree.disk config output others).run tree = (.ok (), after') ∧
      after.Same after' := by
  obtain ⟨files, renders, written⟩ := emit_ok_iff.mp emitted
  have rendered := Emission.renderPackages_files renders
  have ofFile : ∀ file ∈ files, ∃ operator, Named operator ∧
      Emission.Renders config operator file := by
    intro file member
    obtain ⟨operator, inPackages, belongs⟩ := exists_related rendered member
    exact ⟨operator, named operator inPackages, belongs⟩
  rw [Emission.renderPackages_eq] at renders
  obtain ⟨files', renders', reordered⟩ := mapM_perm order renders
  rw [← Emission.renderPackages_eq] at renders'
  have start : ∀ file ∈ files, tree.start (file.under output).path = tree.start output := by
    intro file member
    obtain ⟨operator, ofOperator, belongs⟩ := ofFile file member
    exact CommandLine.start_of_renders ofOperator belongs
  have steps : ∀ file ∈ files, Path.steps (file.under output).path ≠ [] := by
    intro file member
    obtain ⟨operator, ofOperator, belongs⟩ := ofFile file member
    simp [CommandLine.steps_of_renders ofOperator belongs]
  obtain ⟨after', written', same⟩ := writeFiles_perm start steps
    (places_nodup named distinct rendered) reordered.symm written
  exact ⟨after', emit_ok_iff.mpr ⟨files', renders', written'⟩, same⟩

/-- The order of packages does not matter: valid packages whose files have different paths are
    emitted in one order as in any other, into any tree, and the tree holds the same in the
    end. -/
theorem emit_perm (valid : ∀ package ∈ packages, Validation.problems package = [])
    (distinct : ((Emission.operators packages).map fun operator =>
      Emission.filePath operator.1 operator.2).Nodup)
    (order : packages.Perm others)
    (emitted : (emit FileTree.disk config output packages).run tree = (.ok (), after)) :
    ∃ after', (emit FileTree.disk config output others).run tree = (.ok (), after') ∧
      after.Same after' :=
  emit_reordered (fun _ => named_of_valid valid) distinct (order.flatMap_right _) emitted

/-- A package of another directory. -/
def shapesPackage : Package where
  ident := ⟨"shapes"⟩
  version := ⟨2, 1, 0⟩
  methods := [shownMethod "contour", shownMethod "hull"]

/-- Two packages, into a directory that is there and holds something else. -/
theorem emit_perm_shapes :
    (∀ package ∈ [pairPackage "blur" "median", shapesPackage],
        Validation.problems package = []) ∧
      ((Emission.operators [pairPackage "blur" "median", shapesPackage]).map fun operator =>
        Emission.filePath operator.1 operator.2).Nodup ∧
      ∃ after after',
        (emit FileTree.disk .standard "out" [pairPackage "blur" "median", shapesPackage]).run
            ⟨[(["out"], .directory), (["out", "notes"], .file (.text ""))], []⟩ =
          (.ok (), after) ∧
        (emit FileTree.disk .standard "out" [shapesPackage, pairPackage "blur" "median"]).run
            ⟨[(["out"], .directory), (["out", "notes"], .file (.text ""))], []⟩ =
          (.ok (), after') ∧
        after.Same after' := by
  have valid : ∀ package ∈ [pairPackage "blur" "median", shapesPackage],
      Validation.problems package = [] := by decide
  have distinct : ((Emission.operators [pairPackage "blur" "median", shapesPackage]).map
      fun operator => Emission.filePath operator.1 operator.2).Nodup := by decide +kernel
  have emitted := emitted_of_isOk
    ((emit FileTree.disk .standard "out" [pairPackage "blur" "median", shapesPackage]).run
      ⟨[(["out"], .directory), (["out", "notes"], .file (.text ""))], []⟩) (by decide +kernel)
  obtain ⟨after', emitted', same⟩ := emit_perm valid distinct (.swap _ _ _) emitted
  exact ⟨valid, distinct, _, after', emitted, emitted', same⟩

end Generation

namespace CommandLine

/-! ## Definition files in any order -/

variable {config : Config} {output preset : String} {indent : Option UInt64}
  {tree after : FileTree} {files others : List String}

theorem generate_ok_iff :
    (execute FileTree.disk (.generate files output preset indent)).run tree = (.ok "", after) ↔
      ∃ config packages, configure preset indent = .ok config ∧
        List.Forall₂ (Loads tree) files packages ∧
          (Generation.emit FileTree.disk config output packages).run tree = (.ok (), after) := by
  rw [execute, generate]
  rcases configure preset indent with failure | config
  · constructor
    · intro ended
      cases ended
    · rintro ⟨_, _, same, -⟩
      cases same
  simp only [FileTree.run_bind (loadAllValid_run tree files), Except.ok.injEq, exists_and_left,
    exists_eq_left']
  have loading : ∀ packages, files.mapM (loadedAt tree) = .ok packages ↔
      List.Forall₂ (Loads tree) files packages := by
    simp only [mapM_ok_iff, loadedAt_ok_iff, implies_true]
  simp only [← loading]
  rcases files.mapM (loadedAt tree) with failure | packages
  · constructor
    · intro ended
      cases ended
    · rintro ⟨_, same, -⟩
      cases same
  · simp only [Except.ok.injEq, exists_eq_left']
    rcases emitted : (Generation.emit FileTree.disk config output packages).run tree with
      ⟨reason | _, between⟩
    · rw [FileTree.run_bind emitted]
      constructor
      · intro ended
        cases ended
      · intro ended
        cases ended
    · rw [FileTree.run_bind emitted]
      constructor
      · intro ended
        cases ended
        rfl
      · intro ended
        cases ended
        rfl

/-- The order of the definition files does not matter either, if the files of all methods have
    different paths. -/
theorem generate_perm
    (distinct : ∀ packages, List.Forall₂ (Loads tree) files packages →
      ((Emission.operators packages).map fun operator =>
        Emission.filePath operator.1 operator.2).Nodup)
    (order : files.Perm others)
    (generated : (execute FileTree.disk (.generate files output preset indent)).run tree =
      (.ok "", after)) :
    ∃ after', (execute FileTree.disk (.generate others output preset indent)).run tree =
      (.ok "", after') ∧ after.Same after' := by
  obtain ⟨config, packages, known, loaded, emitted⟩ := generate_ok_iff.mp generated
  obtain ⟨packages', loaded', reordered⟩ := List.perm_comp_forall₂ order.symm loaded
  have valid : ∀ package ∈ packages, Validation.problems package = [] := by
    intro package member
    obtain ⟨file, -, -, -, -, valid⟩ := Generation.exists_related loaded member
    exact valid
  obtain ⟨after', emitted', same⟩ := Generation.emit_reordered
    (fun _ => Generation.named_of_valid valid) (distinct packages loaded)
    (reordered.symm.flatMap_right _) emitted
  exact ⟨after', generate_ok_iff.mpr ⟨config, packages', known, loaded', emitted'⟩, same⟩

end CommandLine
end OperatorGen
