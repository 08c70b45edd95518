import OperatorGen.Proofs.FileTree.Changes

/-!
# When a tree takes a file

A file is stored by making the directories on its way and then opening it. Whether that
succeeds can be told from the tree before (`Admits`): the path is one that the system takes,
there is a directory to start from, and no file stands where a directory is needed. What is
empty on the way is made, so it does not matter which directories are there already
(`Admits.makeDirectories`, `Admits.write`).
-/
namespace OperatorGen.FileTree

variable {tree made : FileTree} {path : String} {place target names : List String}

/-! ## Paths to follow -/

theorem checkPath_ok_iff :
    checkPath path = .ok () ↔
      '\x00' ∉ path.toList ∧ path ≠ "" ∧ path.utf8ByteSize < pathLimit := by
  unfold checkPath
  split
  · next unfit => simp [List.contains_iff_mem.mp unfit]
  · next fit =>
    rw [List.contains_iff_mem] at fit
    split
    · next empty => simp [String.isEmpty_iff.mp empty]
    · next some =>
      rw [String.isEmpty_iff] at some
      split
      · next long => simp [Nat.not_lt_of_le long]
      · next short => simp [fit, some, Nat.lt_of_not_le short]

theorem resolve_of_checked (checked : checkPath path = .ok ()) :
    tree.resolve path = tree.follow (tree.start path) (Path.steps path) := by
  rw [resolve, checked]
  rfl

/-- Names can be followed where all places that they pass are directories. -/
theorem follow_of_directories
    (short : ∀ name ∈ names, name = ".." ∨ name.utf8ByteSize ≤ nameLimit)
    (directories : ∀ front, front <+: names → front ≠ names →
      tree.at? (walk place front) = some .directory) :
    tree.follow place names = .ok (walk place names) := by
  induction names generalizing place with
  | nil => rfl
  | cons name rest ih =>
    have here : tree.at? place = some .directory :=
      directories [] List.nil_prefix (List.cons_ne_nil _ _).symm
    rw [follow_cons here (short name List.mem_cons_self)]
    apply ih fun other member => short other (.tail _ member)
    intro front passed further
    exact directories (name :: front) (List.cons_prefix_cons.mpr ⟨rfl, passed⟩) fun same =>
      further (List.cons.inj same).2

/-- Where no file stands in the way, names can be followed, or a directory is missing. -/
theorem follow_or_notFound
    (short : ∀ name ∈ names, name = ".." ∨ name.utf8ByteSize ≤ nameLimit)
    (free : ∀ front, front <+: names → front ≠ names →
      ∀ contents, tree.at? (walk place front) ≠ some (.file contents)) :
    tree.follow place names = .ok (walk place names) ∨
      tree.follow place names = .error .notFound := by
  induction names generalizing place with
  | nil => exact .inl rfl
  | cons name rest ih =>
    rcases held : tree.at? place with _ | ⟨contents⟩ | _
    · right
      rw [follow, held]
    · exact absurd held (free [] List.nil_prefix (List.cons_ne_nil _ _).symm contents)
    · rw [follow_cons held (short name List.mem_cons_self)]
      apply ih fun other member => short other (.tail _ member)
      intro front passed further
      exact free (name :: front) (List.cons_prefix_cons.mpr ⟨rfl, passed⟩) fun same =>
        further (List.cons.inj same).2

/-! ## Making one directory -/

/-- A directory is made where a path leads, unless a file is there. -/
theorem ensureDirectory_of_resolve (resolved : tree.resolve path = .ok place)
    (free : ∀ contents, tree.at? place ≠ some (.file contents)) :
    ∃ after, tree.ensureDirectory path = (after, .ok ()) ∧ after.at? place = some .directory := by
  rcases held : tree.at? place with _ | ⟨contents⟩ | _
  · have done : tree.makeDirectory path = .ok (tree.put place .directory) := by
      rw [makeDirectory, resolved]
      simp only [bind, Except.bind, held]
    have inside : place ≠ [] := by
      rintro rfl
      cases held
    refine ⟨_, by rw [ensureDirectory, done], ?_⟩
    rw [at?_put tree .directory inside, if_pos rfl]
  · exact absurd held (free contents)
  · have refused : tree.makeDirectory path = .error .alreadyExists := by
      rw [makeDirectory, resolved]
      simp only [bind, Except.bind, held]
    have there : tree.isDirectory path = true := by
      rw [isDirectory, resolved]
      simp only [held, decide_true]
    exact ⟨tree, by rw [ensureDirectory, refused]; simp only [there, if_true], held⟩

theorem makeDirectory_ne_notFound (resolved : tree.resolve path = .ok place) :
    tree.makeDirectory path ≠ .error .notFound := by
  rw [makeDirectory, resolved]
  simp only [bind, Except.bind]
  split <;> simp

theorem makeDirectory_error {reason : SystemError} (failed : tree.resolve path = .error reason) :
    tree.makeDirectory path = .error reason := by
  rw [makeDirectory, failed]
  rfl

/-! ## Making all directories on the way -/

section
variable {piece : String} {before reversed : List String}

/-- The path of a directory on the way is one that the system takes. -/
theorem checkPath_ofReversed (checked : checkPath path = .ok ())
    (part : (piece :: before).reverse <+: Path.pieces path) (step : Path.isStep piece = true) :
    checkPath (Path.ofReversed (piece :: before)) = .ok () := by
  obtain ⟨rest, whole⟩ := Path.ofReversed_prefix part
  have same : path = Path.ofReversed (piece :: before) ++ String.ofList rest := by
    rw [← String.toList_inj, String.toList_append, String.toList_ofList, whole]
  obtain ⟨terminated, -, short⟩ := checkPath_ok_iff.mp checked
  refine checkPath_ok_iff.mpr ⟨fun member => terminated ?_, fun empty => ?_, ?_⟩
  · rw [← whole]
    exact List.mem_append_left _ member
  · -- An empty path has one piece, which is no step.
    have split := Path.pieces_ofReversed_part (List.cons_ne_nil piece before) part
    rw [empty, List.reverse_cons] at split
    have last := congrArg List.getLast? split
    rw [List.getLast?_concat] at last
    have none : piece = "" := (Option.some.inj last).symm
    simp [Path.isStep, none] at step
  · rw [same, String.utf8ByteSize_append] at short
    omega

/-- A directory is made behind directories, unless a file is there. -/
theorem ensureDirectory_of_directories {front : List String} {last : String}
    (checked : checkPath path = .ok ()) (split : Path.steps path = front ++ [last])
    (short : ∀ name ∈ Path.steps path, name = ".." ∨ name.utf8ByteSize ≤ nameLimit)
    (directories : ∀ names, names <+: front →
      tree.at? (walk (tree.start path) names) = some .directory)
    (free : ∀ contents, tree.at? (tree.placeOf path) ≠ some (.file contents)) :
    ∃ after, tree.ensureDirectory path = (after, .ok ()) ∧
      ∀ names, names <+: front ++ [last] →
        after.at? (walk (tree.start path) names) = some .directory := by
  have followed : tree.follow (tree.start path) (Path.steps path) = .ok (tree.placeOf path) := by
    refine follow_of_directories short fun names passed further => directories names ?_
    rw [split] at passed further
    exact (List.prefix_concat_iff.mp passed).resolve_left further
  obtain ⟨after, done, directory⟩ := ensureDirectory_of_resolve
    ((resolve_of_checked checked).trans followed) free
  have grown := grown_ensureDirectory tree path
  rw [done] at grown
  refine ⟨after, done, fun names passed => ?_⟩
  rcases List.prefix_concat_iff.mp passed with rfl | passed
  · rwa [placeOf, split] at directory
  · exact grown.keeps (directories names passed)

theorem makeReversed_of_found (step : Path.isStep piece = true)
    (found : tree.makeDirectory (Path.ofReversed (piece :: before)) ≠ .error .notFound) :
    tree.makeReversed (piece :: before) =
      tree.ensureDirectory (Path.ofReversed (piece :: before)) := by
  rw [makeReversed, if_pos step]
  simp only

theorem makeReversed_of_missing {between : FileTree} (step : Path.isStep piece = true)
    (missing : tree.makeDirectory (Path.ofReversed (piece :: before)) = .error .notFound)
    (made : tree.makeReversed before = (between, .ok ())) :
    tree.makeReversed (piece :: before) =
      between.ensureDirectory (Path.ofReversed (piece :: before)) := by
  rw [makeReversed, if_pos step]
  simp only [missing, made]

/-- One more directory on the way is made behind those that have been made, unless a file stands in
    its place. -/
theorem makeReversed_cons_of_free {between : FileTree} (checked : checkPath path = .ok ())
    (part : (piece :: before).reverse <+: Path.pieces path) (step : Path.isStep piece = true)
    (short : ∀ name ∈ (piece :: before).reverse.filter Path.isStep,
      name = ".." ∨ name.utf8ByteSize ≤ nameLimit)
    (free : ∀ names, names <+: (piece :: before).reverse.filter Path.isStep →
      ∀ contents, tree.at? (walk (tree.start path) names) ≠ some (.file contents))
    (made : tree.makeReversed before = (between, .ok ()))
    (directories : ∀ names, names <+: before.reverse.filter Path.isStep →
      between.at? (walk (tree.start path) names) = some .directory) :
    ∃ after, tree.makeReversed (piece :: before) = (after, .ok ()) ∧
      ∀ names, names <+: (piece :: before).reverse.filter Path.isStep →
        after.at? (walk (tree.start path) names) = some .directory := by
  have steps := Path.steps_ofReversed (List.cons_ne_nil piece before) part
  -- The directory itself lies one name behind those that have been made.
  have split : (piece :: before).reverse.filter Path.isStep =
      before.reverse.filter Path.isStep ++ [piece] := by
    rw [List.reverse_cons, List.filter_append, List.filter_cons_of_pos step, List.filter_nil]
  have usable := checkPath_ofReversed checked part step
  have there := free _ List.prefix_rfl
  rw [← start_ofReversed tree part step] at free there directories ⊢
  rw [← steps] at short free there
  rw [split]
  rcases follow_or_notFound short fun names passed _ => free names passed with found | missing
  · have resolved := (resolve_of_checked usable).trans found
    rw [makeReversed_of_found step (makeDirectory_ne_notFound resolved)]
    exact ensureDirectory_of_directories usable (steps.trans split) short
      (fun _ => isDirectory_of_resolve_concat resolved (steps.trans split)) there
  · -- Those in front of it have been made now, at empty places.
    have notFound := makeDirectory_error ((resolve_of_checked usable).trans missing)
    have grown := @grown_makeReversed tree path before
      ((List.prefix_append _ _).trans (List.reverse_cons ▸ part))
    rw [made] at grown
    rw [makeReversed_of_missing step notFound made]
    rw [← start_congr grown.workingDirectory] at directories there ⊢
    refine ensureDirectory_of_directories usable (steps.trans split) short directories ?_
    intro contents held
    rcases grown.places (between.placeOf (Path.ofReversed (piece :: before))) with
      kept | ⟨-, directory, -⟩
    · exact there contents (kept.symm.trans held)
    · rw [directory] at held
      cases held

/-- From a directory on, all directories on the way of a path are made, unless a file stands in
    their way. -/
theorem makeReversed_of_free (checked : checkPath path = .ok ())
    (base : tree.at? (tree.start path) = some .directory)
    (part : reversed.reverse <+: Path.pieces path)
    (short : ∀ name ∈ reversed.reverse.filter Path.isStep,
      name = ".." ∨ name.utf8ByteSize ≤ nameLimit)
    (free : ∀ names, names <+: reversed.reverse.filter Path.isStep →
      ∀ contents, tree.at? (walk (tree.start path) names) ≠ some (.file contents)) :
    ∃ after, tree.makeReversed reversed = (after, .ok ()) ∧
      ∀ names, names <+: reversed.reverse.filter Path.isStep →
        after.at? (walk (tree.start path) names) = some .directory := by
  induction reversed with
  | nil =>
    refine ⟨tree, rfl, fun names passed => ?_⟩
    rw [List.prefix_nil.mp passed]
    exact base
  | cons piece before ih =>
    have shorter : before.reverse <+: (piece :: before).reverse := by simp
    have fewer : before.reverse.filter Path.isStep <+:
        (piece :: before).reverse.filter Path.isStep := shorter.filter _
    obtain ⟨between, made, directories⟩ := ih (shorter.trans part)
      (fun name member => short name (fewer.subset member))
      (fun names passed => free names (passed.trans fewer))
    by_cases step : Path.isStep piece = true
    · exact makeReversed_cons_of_free checked part step short free made directories
    · rw [makeReversed, if_neg step]
      rw [List.reverse_cons, List.filter_append, List.filter_cons_of_neg step, List.filter_nil,
        List.append_nil]
      exact ⟨between, made, directories⟩

end

/-! ## Without a directory to start from -/

theorem resolve_of_no_start (no : tree.at? (tree.start path) = none)
    (named : Path.steps path ≠ []) : ∃ reason, tree.resolve path = .error reason := by
  rcases checked : checkPath path with reason | _
  · exact ⟨reason, by rw [resolve, checked]; rfl⟩
  · obtain ⟨name, rest, steps⟩ := List.exists_cons_of_ne_nil named
    exact ⟨.notFound, by rw [resolve_of_checked checked, steps, follow, no]⟩

theorem ensureDirectory_of_error {reason : SystemError}
    (failed : tree.resolve path = .error reason) : (tree.ensureDirectory path).1 = tree := by
  have nowhere : tree.isDirectory path = false := by rw [isDirectory, failed]
  rw [ensureDirectory, makeDirectory_error failed]
  simp [nowhere]

/-- No directory is made where there is none to start from. -/
theorem makeReversed_of_no_start {reversed : List String}
    (no : tree.at? (tree.start path) = none) (part : reversed.reverse <+: Path.pieces path) :
    (tree.makeReversed reversed).1 = tree := by
  induction reversed with
  | nil => rfl
  | cons piece before ih =>
    have shorter : before.reverse <+: (piece :: before).reverse := by simp
    have unchanged := ih (shorter.trans part)
    rw [makeReversed]
    split
    · next step =>
      have steps := Path.steps_ofReversed (List.cons_ne_nil piece before) part
      have start := start_ofReversed tree part step
      have named : Path.steps (Path.ofReversed (piece :: before)) ≠ [] := by
        rw [steps]
        exact List.ne_nil_of_mem (List.mem_filter.mpr ⟨by simp, step⟩)
      obtain ⟨reason, failed⟩ := resolve_of_no_start (start ▸ no) named
      rcases result : tree.makeReversed before with ⟨changed, _ | _⟩
      · obtain rfl : changed = tree := by rw [← unchanged, result]
        simp only
        split
        · rfl
        · exact ensureDirectory_of_error failed
      · obtain rfl : changed = tree := by rw [← unchanged, result]
        simp only
        split
        · exact ensureDirectory_of_error failed
        · exact ensureDirectory_of_error failed
    · exact unchanged

/-- A file is stored only where there is a directory to start from. -/
theorem start_of_stored {text : String} {changed : FileTree} {result : Except SystemError Unit}
    (done : tree.makeDirectories path = (made, result))
    (wrote : made.write path text = .ok changed) (named : Path.steps path ≠ []) :
    tree.at? (tree.start path) = some .directory := by
  have grown := grown_makeDirectories tree path
  rw [done] at grown
  rw [write, bind_ok_iff] at wrote
  obtain ⟨target, resolved, -⟩ := wrote
  have there : made.at? (made.start path) = some .directory :=
    isDirectory_of_resolve resolved ⟨[], List.nil_prefix, named.symm, rfl⟩
  rw [start_congr grown.workingDirectory] at there
  rcases grown.places (tree.start path) with same | ⟨no, -⟩
  · rw [← same, there]
  · have unchanged : made = tree := by
      rw [← makeReversed_of_no_start no (Path.reversedParent_prefix path)]
      exact (congrArg Prod.fst done).symm
    rw [unchanged] at there
    exact there

/-! ## Storing a file -/

/-- A tree has room for a file at a path. -/
structure Admits (tree : FileTree) (path : String) : Prop where
  checked : checkPath path = .ok ()
  short : ∀ name ∈ Path.steps path, name = ".." ∨ name.utf8ByteSize ≤ nameLimit
  start : tree.at? (tree.start path) = some .directory
  way : ∀ place, tree.OnTheWay path place → ∀ contents, tree.at? place ≠ some (.file contents)
  target : tree.at? (tree.placeOf path) ≠ some .directory

namespace Admits

/-- The path of a file has a name. -/
theorem named (admits : tree.Admits path) : Path.steps path ≠ [] := by
  intro none
  apply admits.target
  rw [placeOf, none]
  exact admits.start

/-- The directories for the file can be made. -/
theorem makeDirectories (admits : tree.Admits path) :
    ∃ made, tree.makeDirectories path = (made, .ok ()) ∧
      ∀ place, tree.OnTheWay path place → made.at? place = some .directory := by
  have steps := Path.steps_reversedParent path
  obtain ⟨made, done, directories⟩ := makeReversed_of_free admits.checked admits.start
    (Path.reversedParent_prefix path)
    (fun name member => admits.short name ((List.dropLast_prefix _).subset (steps ▸ member)))
    (fun names passed => admits.way _ ((onTheWay_iff admits.named).mpr
      ⟨names, steps ▸ passed, rfl⟩))
  refine ⟨made, done, fun place way => ?_⟩
  obtain ⟨names, passed, rfl⟩ := (onTheWay_iff admits.named).mp way
  exact directories names (steps ▸ passed)

/-- The file can be stored, unless its own place is made a directory on the way. -/
theorem write (admits : tree.Admits path) (apart : ¬ tree.OnTheWay path (tree.placeOf path))
    (text : String) :
    ∃ made changed, tree.makeDirectories path = (made, .ok ()) ∧
      made.write path text = .ok changed := by
  obtain ⟨made, done, directories⟩ := admits.makeDirectories
  have grown := grown_makeDirectories tree path
  rw [done] at grown
  have resolved : made.resolve path = .ok (tree.placeOf path) := by
    refine resolve_ok_iff.mpr ⟨admits.checked, ?_⟩
    rw [start_congr grown.workingDirectory]
    exact follow_of_directories admits.short fun front passed further =>
      directories _ ⟨front, passed, further, rfl⟩
  have free : made.at? (tree.placeOf path) ≠ some .directory := by
    rcases grown.places (tree.placeOf path) with same | ⟨-, -, way⟩
    · rw [same]
      exact admits.target
    · exact absurd way apart
  refine ⟨made, made.put (tree.placeOf path) (.file (.text text)), done, ?_⟩
  rw [FileTree.write, resolved]
  simp only [bind, Except.bind]

end Admits

end OperatorGen.FileTree
