import OperatorGen.FileTree
import OperatorGen.Proofs.FirstError
import OperatorGen.Proofs.Text.Path

/-!
# Places in a file tree

Where a path leads is decided by its names alone (`FileTree.placeOf`); the tree only decides
whether it may be followed, for which every place that is passed must be a directory
(`isDirectory_of_resolve`). A path that can be followed stays so as long as all directories
stay (`resolve_mono`). Something that is put into a place changes no other place
(`at?_put`).
-/
namespace OperatorGen.FileTree

/-! ## Places that names lead to -/

/-- The place that a name leads to. -/
def enter (place : List String) (name : String) : List String :=
  if name = ".." then place.dropLast else place ++ [name]

/-- The place that names lead to, whatever is there. -/
def walk (place names : List String) : List String :=
  names.foldl enter place

/-- The place that a path leads to. -/
def placeOf (tree : FileTree) (path : String) : List String :=
  walk (tree.start path) (Path.steps path)

/-- A place that is passed on the way to that of a path. -/
def OnTheWay (tree : FileTree) (path : String) (place : List String) : Prop :=
  ∃ names, names <+: Path.steps path ∧ names ≠ Path.steps path ∧
    place = walk (tree.start path) names

/-- All names but the last are passed. -/
theorem onTheWay_iff {tree : FileTree} {path : String} {place : List String}
    (named : Path.steps path ≠ []) :
    tree.OnTheWay path place ↔
      ∃ names, names <+: (Path.steps path).dropLast ∧ place = walk (tree.start path) names := by
  obtain ⟨front, last, split⟩ := (List.eq_nil_or_concat (Path.steps path)).resolve_left named
  rw [OnTheWay, split, List.concat_eq_append, List.dropLast_concat]
  constructor
  · rintro ⟨names, passed, further, same⟩
    exact ⟨names, (List.prefix_concat_iff.mp passed).resolve_left further, same⟩
  · rintro ⟨names, passed, same⟩
    refine ⟨names, passed.trans (List.prefix_append _ _), ?_, same⟩
    rintro rfl
    exact absurd passed.length_le (by simp)

theorem walk_append (place front back : List String) :
    walk place (front ++ back) = walk (walk place front) back :=
  List.foldl_append

section
variable {tree other : FileTree} {path : String} {place target names : List String}

theorem start_congr (same : other.workingDirectory = tree.workingDirectory) (path : String) :
    other.start path = tree.start path := by
  rw [start, start, same]

theorem placeOf_congr (same : other.workingDirectory = tree.workingDirectory) (path : String) :
    other.placeOf path = tree.placeOf path := by
  rw [placeOf, placeOf, start_congr same]

theorem onTheWay_congr (same : other.workingDirectory = tree.workingDirectory) :
    other.OnTheWay path place ↔ tree.OnTheWay path place := by
  rw [OnTheWay, OnTheWay, start_congr same]

/-- The path of a directory on the way starts where the whole path does. -/
theorem start_ofReversed {piece : String} {before : List String} (tree : FileTree)
    (part : (piece :: before).reverse <+: Path.pieces path) (step : Path.isStep piece = true) :
    tree.start (Path.ofReversed (piece :: before)) = tree.start path := by
  rw [start, start, Path.isAbsolute_ofReversed part step]

/-- A directory on the way lies where the names down to it lead. -/
theorem placeOf_ofReversed {piece : String} {before : List String} (tree : FileTree)
    (part : (piece :: before).reverse <+: Path.pieces path) (step : Path.isStep piece = true) :
    tree.placeOf (Path.ofReversed (piece :: before)) =
      walk (tree.start path) ((piece :: before).reverse.filter Path.isStep) := by
  rw [placeOf, start_ofReversed tree part step, Path.steps_ofReversed (List.cons_ne_nil _ _) part]

/-- A name can be followed from a directory only. -/
theorem follow_cons_ok {name : String} {rest : List String}
    (followed : tree.follow place (name :: rest) = .ok target) :
    tree.at? place = some .directory ∧ (name = ".." ∨ name.utf8ByteSize ≤ nameLimit) ∧
      tree.follow (enter place name) rest = .ok target := by
  rw [follow] at followed
  split at followed
  · cases followed
  · cases followed
  · next directory =>
    refine ⟨directory, ?_⟩
    by_cases back : name = ".."
    · rw [if_pos back] at followed
      exact ⟨.inl back, by rwa [enter, if_pos back]⟩
    · rw [if_neg back] at followed
      split at followed
      · cases followed
      · next short => exact ⟨.inr (Nat.le_of_not_lt short), by rwa [enter, if_neg back]⟩

theorem follow_cons {name : String} {rest : List String}
    (directory : tree.at? place = some .directory)
    (short : name = ".." ∨ name.utf8ByteSize ≤ nameLimit) :
    tree.follow place (name :: rest) = tree.follow (enter place name) rest := by
  rw [follow, directory, enter]
  by_cases back : name = ".."
  · simp only [if_pos back]
  · have fits : ¬ nameLimit < name.utf8ByteSize := Nat.not_lt_of_le (short.resolve_left back)
    simp only [if_neg back, if_neg fits]

/-- Names that are followed are no longer than a directory can hold. -/
theorem short_of_follow (followed : tree.follow place names = .ok target) :
    ∀ name ∈ names, name = ".." ∨ name.utf8ByteSize ≤ nameLimit := by
  induction names generalizing place with
  | nil => simp
  | cons name rest ih =>
    obtain ⟨-, short, further⟩ := follow_cons_ok followed
    exact List.forall_mem_cons.mpr ⟨short, ih further⟩

theorem walk_of_follow (followed : tree.follow place names = .ok target) :
    target = walk place names := by
  induction names generalizing place with
  | nil =>
    cases followed
    rfl
  | cons name rest ih =>
    obtain ⟨-, -, further⟩ := follow_cons_ok followed
    exact ih further

/-- Every place that is passed is a directory. -/
theorem isDirectory_of_follow {front : List String}
    (followed : tree.follow place names = .ok target) (passed : front <+: names)
    (further : front ≠ names) :
    tree.at? (walk place front) = some .directory := by
  induction names generalizing place front with
  | nil => exact absurd (List.prefix_nil.mp passed) further
  | cons name rest ih =>
    obtain ⟨directory, -, following⟩ := follow_cons_ok followed
    cases front with
    | nil => exact directory
    | cons first others =>
      rw [List.cons_prefix_cons] at passed
      obtain ⟨rfl, passed⟩ := passed
      have shorter : others ≠ rest := fun same => further (by rw [same])
      have later : tree.at? (walk (enter place first) others) = some .directory :=
        ih following passed shorter
      exact later

/-- Names that can be followed can be followed where all these directories are. -/
theorem follow_mono (directories : ∀ place, tree.at? place = some .directory →
      other.at? place = some .directory)
    (followed : tree.follow place names = .ok target) : other.follow place names = .ok target := by
  induction names generalizing place with
  | nil => exact followed
  | cons name rest ih =>
    obtain ⟨directory, short, further⟩ := follow_cons_ok followed
    rw [follow_cons (directories place directory) short]
    exact ih further

theorem resolve_ok_iff :
    tree.resolve path = .ok target ↔ checkPath path = .ok () ∧
      tree.follow (tree.start path) (Path.steps path) = .ok target := by
  rw [resolve, bind_ok_iff]
  constructor
  · rintro ⟨_, checked, followed⟩
    exact ⟨checked, followed⟩
  · rintro ⟨checked, followed⟩
    exact ⟨(), checked, followed⟩

theorem placeOf_of_resolve (resolved : tree.resolve path = .ok target) :
    target = tree.placeOf path :=
  walk_of_follow (resolve_ok_iff.mp resolved).2

/-- A path that can be followed passes directories only. -/
theorem isDirectory_of_resolve (resolved : tree.resolve path = .ok target)
    (way : tree.OnTheWay path place) : tree.at? place = some .directory := by
  obtain ⟨names, passed, further, rfl⟩ := way
  exact isDirectory_of_follow (resolve_ok_iff.mp resolved).2 passed further

/-- In front of the last name of a path that can be followed there are directories only. -/
theorem isDirectory_of_resolve_concat {front : List String} {last : String}
    (resolved : tree.resolve path = .ok target) (split : Path.steps path = front ++ [last])
    (passed : names <+: front) : tree.at? (walk (tree.start path) names) = some .directory := by
  have named : Path.steps path ≠ [] := by simp [split]
  refine isDirectory_of_resolve resolved ((onTheWay_iff named).mpr ⟨names, ?_, rfl⟩)
  rwa [split, List.dropLast_concat]

theorem resolve_mono (same : other.workingDirectory = tree.workingDirectory)
    (directories : ∀ place, tree.at? place = some .directory → other.at? place = some .directory)
    (resolved : tree.resolve path = .ok target) : other.resolve path = .ok target := by
  obtain ⟨checked, followed⟩ := resolve_ok_iff.mp resolved
  refine resolve_ok_iff.mpr ⟨checked, ?_⟩
  rw [start_congr same]
  exact follow_mono directories followed

/-- A file in a directory inside another directory lies two names behind the latter. -/
theorem placeOf_join_names {first second : String} (directory : Path.IsName first)
    (file : Path.IsName second) (output : String) :
    tree.placeOf (Path.join output (first ++ "/" ++ second)) =
      tree.placeOf output ++ [first, second] := by
  have relative := @Path.isAbsolute_names first second directory
  have start : tree.start (Path.join output (first ++ "/" ++ second)) = tree.start output := by
    rw [start, start, Path.isAbsolute_join relative]
  rw [placeOf, placeOf, start, Path.steps_join relative, Path.steps_names directory file,
    walk_append]
  simp [walk, enter, directory.forward, file.forward]

/-- What is read is the text at the place that a path leads to. -/
theorem read_of_text {value : String} (resolved : tree.resolve path = .ok place)
    (stored : tree.at? place = some (.file (.text value)))
    (plain : Path.wantsDirectory path = false) : tree.read path = .ok value := by
  rw [read, resolved]
  simp only [bind, Except.bind, stored, plain, Bool.false_eq_true, if_false]

end

/-! ## Putting something into a place -/

theorem at?_root (tree : FileTree) : tree.at? [] = some .directory := rfl

theorem at?_put (tree : FileTree) (entry : Entry) {place : List String} (inside : place ≠ [])
    (asked : List String) :
    (tree.put place entry).at? asked = if asked = place then some entry else tree.at? asked := by
  rcases asked with _ | ⟨name, rest⟩
  · rw [if_neg (Ne.symm inside), at?_root, at?_root]
  · by_cases same : name :: rest = place
    · simp [at?, put, same, inside]
    · have found : ∀ entries : List (List String × Entry),
          (entries.filter fun old => old.1 ≠ place).find? (fun entry => entry.1 = name :: rest) =
            entries.find? fun entry => entry.1 = name :: rest := by
        intro entries
        rw [List.find?_filter]
        congr 1
        funext old
        by_cases wanted : old.1 = name :: rest
        · simp [wanted, same]
        · simp [wanted]
      rw [if_neg same, at?, at?, put]
      simp only [List.isEmpty_cons, Bool.false_eq_true, if_false]
      rw [List.find?_cons_of_neg (by simpa using Ne.symm same), found]

end OperatorGen.FileTree
