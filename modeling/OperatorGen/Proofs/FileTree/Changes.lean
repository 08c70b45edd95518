import OperatorGen.Emission.File
import OperatorGen.Proofs.FileTree.Places

/-!
# What writing changes

Making the directories for a file adds directories on its way and nothing else (`Grown`).
Writing files one after another changes a tree in three ways only (`Changes`): a place that
a file was written to holds the text of the last such file, an empty place on the way of a
file may have become a directory, and all else is as it was. These changes add up
(`Changes.append`).
-/
namespace OperatorGen.FileTree

/-! ## Making directories -/

/-- Directories have been made at empty places of a kind, and nothing else has changed. -/
structure Grown (made : List String → Prop) (before after : FileTree) : Prop where
  workingDirectory : after.workingDirectory = before.workingDirectory
  places : ∀ place, after.at? place = before.at? place ∨
    before.at? place = none ∧ after.at? place = some .directory ∧ made place

section
variable {tree between after : FileTree} {path : String} {made other : List String → Prop}

theorem Grown.refl (tree : FileTree) : Grown made tree tree := ⟨rfl, fun _ => .inl rfl⟩

theorem Grown.mono (grown : Grown made tree after) (wider : ∀ place, made place → other place) :
    Grown other tree after :=
  ⟨grown.workingDirectory, fun place => (grown.places place).imp_right fun new =>
    ⟨new.1, new.2.1, wider place new.2.2⟩⟩

theorem Grown.trans (first : Grown made tree between) (second : Grown made between after) :
    Grown made tree after := by
  refine ⟨second.workingDirectory.trans first.workingDirectory, fun place => ?_⟩
  rcases second.places place with same | ⟨empty, directory, kind⟩
  · rw [same]
    exact first.places place
  · -- What the second filled had been empty before the first as well.
    rcases first.places place with same | ⟨-, filled, -⟩
    · exact .inr ⟨same ▸ empty, directory, kind⟩
    · rw [empty] at filled
      cases filled

theorem Grown.keeps (grown : Grown made tree after) {place : List String} {entry : Entry}
    (held : tree.at? place = some entry) : after.at? place = some entry := by
  rcases grown.places place with same | ⟨empty, -⟩
  · rw [same, held]
  · rw [held] at empty
    cases empty

theorem grown_makeDirectory {changed : FileTree} (done : tree.makeDirectory path = .ok changed) :
    Grown (fun place => place = tree.placeOf path) tree changed := by
  rw [makeDirectory, bind_ok_iff] at done
  obtain ⟨target, resolved, put⟩ := done
  split at put
  · cases put
  · next empty =>
    cases put
    have inside : target ≠ [] := by
      rintro rfl
      cases empty
    refine ⟨rfl, fun place => ?_⟩
    rw [at?_put tree .directory inside]
    by_cases here : place = target
    · right
      rw [if_pos here, here]
      exact ⟨empty, rfl, placeOf_of_resolve resolved⟩
    · rw [if_neg here]
      exact .inl rfl

theorem grown_ensureDirectory (tree : FileTree) (path : String) :
    Grown (fun place => place = tree.placeOf path) tree (tree.ensureDirectory path).1 := by
  unfold ensureDirectory
  split
  · next changed done => exact grown_makeDirectory done
  · split
    · exact .refl tree
    · exact .refl tree

/-- Directories are made at places that the front of a path leads to. -/
theorem grown_makeReversed {reversed : List String} (part : reversed.reverse <+: Path.pieces path) :
    Grown (fun place => ∃ names, names <+: reversed.reverse.filter Path.isStep ∧
      place = walk (tree.start path) names) tree (tree.makeReversed reversed).1 := by
  induction reversed with
  | nil => exact .refl tree
  | cons piece before ih =>
    have shorter : before.reverse <+: (piece :: before).reverse := by simp
    have way := ih (shorter.trans part)
    have wider : Grown (fun place => ∃ names,
        names <+: (piece :: before).reverse.filter Path.isStep ∧
          place = walk (tree.start path) names) tree (tree.makeReversed before).1 :=
      way.mono fun place ⟨names, passed, same⟩ => ⟨names, passed.trans (shorter.filter _), same⟩
    rw [makeReversed]
    split
    · next step =>
      -- The directory itself lies where all these names lead.
      have place : ∀ {other : FileTree}, other.workingDirectory = tree.workingDirectory →
          other.placeOf (Path.ofReversed (piece :: before)) =
            walk (tree.start path) ((piece :: before).reverse.filter Path.isStep) := by
        intro other same
        rw [placeOf_congr same, placeOf_ofReversed tree part step]
      have ensured : ∀ {other : FileTree}, other.workingDirectory = tree.workingDirectory →
          Grown (fun place => ∃ names,
            names <+: (piece :: before).reverse.filter Path.isStep ∧
              place = walk (tree.start path) names) other
            (other.ensureDirectory (Path.ofReversed (piece :: before))).1 :=
        fun same => (grown_ensureDirectory _ _).mono fun _ here =>
          ⟨_, List.prefix_refl _, here.trans (place same)⟩
      simp only
      split
      · rcases result : tree.makeReversed before with ⟨changed, _ | _⟩
        · rw [result] at wider
          exact wider
        · rw [result] at wider
          exact wider.trans (ensured wider.workingDirectory)
      · exact ensured rfl
    · exact wider

/-- Making the directories for a file adds directories on its way. -/
theorem grown_makeDirectories (tree : FileTree) (path : String) :
    Grown (tree.OnTheWay path) tree (tree.makeDirectories path).1 := by
  have grown := @grown_makeReversed tree path _ (Path.reversedParent_prefix path)
  rw [Path.steps_reversedParent] at grown
  by_cases named : Path.steps path = []
  · -- A path without names has no directories before it.
    rw [makeDirectories, Path.reversedParent_of_no_steps named]
    exact .refl tree
  · exact grown.mono fun place => (onTheWay_iff named).mpr

end

/-! ## Changes -/

/-- An element of two lists is one of the second, or of the first with all of the second behind
    it. -/
theorem append_eq_append_cons {α : Type} {first second front rest : List α} {x : α}
    (split : first ++ second = front ++ x :: rest) :
    (∃ more, second = more ++ x :: rest) ∨
      ∃ more, first = front ++ x :: more ∧ rest = more ++ second := by
  rcases List.append_eq_append_iff.mp split with ⟨more, -, late⟩ | ⟨more, early, tail⟩
  · exact .inl ⟨more, late⟩
  · rcases List.cons_eq_append_iff.mp tail with ⟨rfl, same⟩ | ⟨others, rfl, same⟩
    · exact .inl ⟨[], same⟩
    · exact .inr ⟨others, early, same⟩

/-- What has become of a tree in which files have been written in order, and directories made
    for some files. -/
structure Changes (written attempted : List Emission.File) (before after : FileTree) : Prop where
  workingDirectory : after.workingDirectory = before.workingDirectory
  /-- The path of a file that was written leads to its place, through directories. -/
  reached : ∀ file ∈ written, after.resolve file.path = .ok (before.placeOf file.path)
  parents : ∀ file ∈ written, ∀ place, before.OnTheWay file.path place →
    after.at? place = some .directory
  /-- A place holds the text of the last file that was written to it. -/
  texts : ∀ front file rest, written = front ++ file :: rest →
    (∀ other ∈ rest, before.placeOf other.path ≠ before.placeOf file.path) →
      after.at? (before.placeOf file.path) = some (.file (.text file.contents))
  directories : ∀ place, before.at? place = some .directory → after.at? place = some .directory
  /-- Anywhere else, at most a directory has been made where nothing was. -/
  others : ∀ place, (∀ file ∈ written, before.placeOf file.path ≠ place) →
    after.at? place = before.at? place ∨
      before.at? place = none ∧ after.at? place = some .directory ∧
        ∃ file ∈ attempted, before.OnTheWay file.path place

namespace Changes

variable {before between after : FileTree} {file : Emission.File}
  {written attempted written' attempted' : List Emission.File}

theorem refl (tree : FileTree) : Changes [] [] tree tree where
  workingDirectory := rfl
  reached := nofun
  parents := nofun
  texts front file rest split _ := by simp at split
  directories _ directory := directory
  others _ _ := .inl rfl

theorem of_grown (grown : Grown (before.OnTheWay file.path) before after) :
    Changes [] [file] before after where
  workingDirectory := grown.workingDirectory
  reached := nofun
  parents := nofun
  texts front file rest split _ := by simp at split
  directories _ directory := grown.keeps directory
  others place _ := (grown.places place).imp_right fun ⟨empty, directory, way⟩ =>
    ⟨empty, directory, file, List.mem_singleton.mpr rfl, way⟩

/-- What a place held stays, unless a file is written there. -/
theorem keeps (changes : Changes written attempted before after) {place : List String}
    {entry : Entry} (elsewhere : ∀ file ∈ written, before.placeOf file.path ≠ place)
    (held : before.at? place = some entry) : after.at? place = some entry := by
  rcases changes.others place elsewhere with same | ⟨empty, -⟩
  · rw [same, held]
  · rw [held] at empty
    cases empty

/-- The changes of two runs of writing, one after the other. -/
theorem append (first : Changes written attempted before between)
    (second : Changes written' attempted' between after) :
    Changes (written ++ written') (attempted ++ attempted') before after := by
  have places : ∀ path, between.placeOf path = before.placeOf path :=
    placeOf_congr first.workingDirectory
  refine
    { workingDirectory := second.workingDirectory.trans first.workingDirectory
      directories := fun place directory =>
        second.directories place (first.directories place directory)
      reached := ?_
      parents := ?_
      texts := ?_
      others := ?_ }
  · intro file member
    rcases List.mem_append.mp member with early | late
    · exact resolve_mono second.workingDirectory second.directories (first.reached file early)
    · rw [← places]
      exact second.reached file late
  · intro file member place way
    rcases List.mem_append.mp member with early | late
    · exact second.directories place (first.parents file early place way)
    · exact second.parents file late place ((onTheWay_congr first.workingDirectory).mpr way)
  · intro front file rest split last
    rcases append_eq_append_cons split with ⟨more, late⟩ | ⟨more, early, rfl⟩
    · rw [← places]
      refine second.texts more file rest late fun other member => ?_
      rw [places, places]
      exact last other member
    · -- The second run has left its place alone.
      have stored := first.texts front file more early fun other member =>
        last other (List.mem_append_left _ member)
      refine second.keeps (fun other member => ?_) stored
      rw [places]
      exact last other (List.mem_append_right _ member)
  · intro place elsewhere
    have early := first.others place fun file member =>
      elsewhere file (List.mem_append_left _ member)
    have late := second.others place fun file member => by
      rw [places]
      exact elsewhere file (List.mem_append_right _ member)
    rcases late with same | ⟨empty, directory, file, member, way⟩
    · rw [same]
      exact early.imp_right fun ⟨empty, directory, file, member, way⟩ =>
        ⟨empty, directory, file, List.mem_append_left _ member, way⟩
    · rcases early with same | ⟨-, filled, -⟩
      · rw [onTheWay_congr first.workingDirectory] at way
        exact .inr ⟨same ▸ empty, directory, file, List.mem_append_right _ member, way⟩
      · rw [empty] at filled
        cases filled

end Changes

/-- A file that is written fills its own place only. -/
theorem changes_write {tree changed : FileTree} {file : Emission.File}
    (done : tree.write file.path file.contents = .ok changed) :
    Changes [file] [] tree changed := by
  rw [write, bind_ok_iff] at done
  obtain ⟨target, resolved, put⟩ := done
  obtain rfl := placeOf_of_resolve resolved
  have free : tree.at? (tree.placeOf file.path) ≠ some .directory := by
    intro directory
    rw [directory] at put
    cases put
  have inside : tree.placeOf file.path ≠ [] := fun root => free (by rw [root]; rfl)
  have same : changed = tree.put (tree.placeOf file.path) (.file (.text file.contents)) := by
    split at put
    · cases put
    · exact (Except.ok.inj put).symm
  have places : ∀ place, changed.at? place = if place = tree.placeOf file.path then
      some (.file (.text file.contents)) else tree.at? place := by
    rw [same]
    exact at?_put tree _ inside
  have directories : ∀ place, tree.at? place = some .directory →
      changed.at? place = some .directory := by
    intro place directory
    rw [places, if_neg, directory]
    rintro rfl
    exact free directory
  have workingDirectory : changed.workingDirectory = tree.workingDirectory := by rw [same]; rfl
  refine ⟨workingDirectory, ?_, ?_, ?_, directories, ?_⟩
  · intro other member
    obtain rfl := List.mem_singleton.mp member
    exact resolve_mono workingDirectory directories resolved
  · intro other member place way
    obtain rfl := List.mem_singleton.mp member
    exact directories place (isDirectory_of_resolve resolved way)
  · intro front other rest split _
    have member : other ∈ [file] := by simp [split]
    obtain rfl := List.mem_singleton.mp member
    rw [places, if_pos rfl]
  · intro place elsewhere
    rw [places, if_neg (Ne.symm (elsewhere file (by simp)))]
    exact .inl rfl

end OperatorGen.FileTree
