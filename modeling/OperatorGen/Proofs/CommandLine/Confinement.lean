import OperatorGen.Proofs.CommandLine.Generation
import OperatorGen.Proofs.CommandLine.MethodFiles

/-!
# Where a generation writes

The path of a source file is put together from spellings of a definition, and joining paths
neither looks for slashes nor follows points. What keeps a file inside the output directory
is that a valid identifier has no character with a meaning in a path, and that its class
form brings none: the path is made of two names, each of which leads one step down
(`isComponent_of_isValid`). So whatever definitions a generation reads, it touches the places
of source files and of the directories on their way, and no others
(`generation_confined`).
-/
namespace OperatorGen

/-! ## Components of paths -/

/-- A component of a path: a name that leads one step down, and that a system can take. -/
structure Path.IsComponent (name : String) : Prop extends Path.IsName name where
  unterminated : '\x00' ∉ name.toList

namespace Ident

variable {ident : Ident}

theorem isComponent_of_isValid (valid : ident.isValid = true) : Path.IsComponent ident.text where
  toIsName := isName_of_isValid valid
  unterminated := not_mem_of_isValid valid (by decide +kernel)

theorem isComponent_sourceFile (valid : ident.isValid = true) :
    Path.IsComponent (ident.className ++ ".cpp") where
  toIsName := isName_sourceFile valid
  unterminated := by
    have none := not_mem_className (isComponent_of_isValid valid).unterminated (by decide)
    rw [String.toList_append, List.mem_append, not_or]
    exact ⟨none, by decide⟩

end Ident

/-- The path of a file in a directory: it is relative, and these are its two components. -/
structure Path.TwoSteps (path directory file : String) : Prop where
  relative : Path.isAbsolute path = false
  pieces : Path.pieces path = [directory, file]
  directory : Path.IsComponent directory
  file : Path.IsComponent file

namespace Emission

theorem twoSteps_filePath {package : Package} {method : Method}
    (named : Generation.Named (package, method)) :
    Path.TwoSteps (filePath package method) package.ident.text
      (method.ident.className ++ ".cpp") := by
  have directory := Ident.isComponent_of_isValid named.1
  have file := Ident.isComponent_sourceFile named.2
  have joined : filePath package method =
      package.ident.text ++ "/" ++ (method.ident.className ++ ".cpp") :=
    Path.join_names directory.toIsName file.toIsName
  refine ⟨?_, ?_, directory, file⟩
  · rw [joined]
    exact Path.isAbsolute_names directory.toIsName
  · rw [joined, Path.pieces_append_slash, Path.pieces_of_no_slash directory.plain,
      Path.pieces_of_no_slash file.plain]
    rfl

/-- The files of a valid package lie in the directory of the package, each named for the class
    of its method. -/
theorem twoSteps_of_valid {config : Config} {package : Package} {files : List File}
    (valid : Validation.problems package = [])
    (rendered : renderPackage config package = .ok files) :
    List.Forall₂ (fun method file => Path.TwoSteps file.path package.ident.text
      (method.ident.className ++ ".cpp")) package.methods files := by
  have whole := Validation.problems_eq_nil_iff.mp valid
  apply (renderPackage_files rendered).imp
  intro method file ⟨member, path, _⟩
  rw [path]
  exact twoSteps_filePath ⟨whole.ident, (whole.methods method member).ident⟩

end Emission

/-! ## Touched places -/

/-- What is at the place of a file that was written is the text of the last file that was
    written there. -/
theorem FileTree.Changes.exists_last {written attempted : List Emission.File}
    {before after : FileTree} (changes : FileTree.Changes written attempted before after)
    {file : Emission.File} (member : file ∈ written) :
    ∃ last ∈ written, before.placeOf last.path = before.placeOf file.path ∧
      after.at? (before.placeOf last.path) = some (.file (.text last.contents)) := by
  have same : List.Forall₂ Eq written written := List.forall₂_same.mpr fun _ _ => rfl
  have there : ∃ other ∈ written, before.placeOf other.path = before.placeOf file.path :=
    ⟨file, member, rfl⟩
  obtain ⟨front, last, rest, _, _, _, split, here, elsewhere, _⟩ :=
    Generation.exists_last same there
  refine ⟨last, by simp [split], here, changes.texts front last rest split ?_⟩
  intro other inRest back
  exact elsewhere other inRest (back.trans here)

namespace CommandLine

/-- A method that one of these files defines, in a valid package, with valid idents. -/
def Defines (tree : FileTree) (files : List String) (operator : Package × Method) : Prop :=
  Generation.Named operator ∧ ∃ file ∈ files, Loads tree file operator.1 ∧
    operator.2 ∈ operator.1.methods

/-- What has become of a place after sources of methods may have been written into a directory:
    it is as it was, it is the place of a source file, with the text of its method, or it was
    empty and is a directory now, on the way to the output directory or to a source file in
    it. -/
inductive Touched (defined : Package × Method → Prop) (output : String) (tree after : FileTree)
    (place : List String) : Prop
  | kept (same : after.at? place = tree.at? place)
  | source {config : Config} {operator : Package × Method} {text : String}
      (belongs : defined operator)
      (inside : place = tree.placeOf output ++
        [operator.1.ident.text, operator.2.ident.className ++ ".cpp"])
      (renders : Emission.renderMethod config operator.1 operator.2 = .ok text)
      (stored : after.at? place = some (.file (.text text)))
  | outputDirectory {names : List String} (empty : tree.at? place = none)
      (made : after.at? place = some .directory) (passed : names <+: Path.steps output)
      (way : place = FileTree.walk (tree.start output) names)
  | packageDirectory {operator : Package × Method} (empty : tree.at? place = none)
      (made : after.at? place = some .directory) (belongs : defined operator)
      (inside : place = tree.placeOf output ++ [operator.1.ident.text])

/-- A run into a directory touches no other places. -/
structure Confined (defined : Package × Method → Prop) (output : String)
    (tree after : FileTree) : Prop where
  workingDirectory : after.workingDirectory = tree.workingDirectory
  places : ∀ place, Touched defined output tree after place

theorem Confined.refl {defined : Package × Method → Prop} {output : String} {tree : FileTree} :
    Confined defined output tree tree :=
  ⟨rfl, fun _ => .kept rfl⟩

section
variable {defined : Package × Method → Prop} {config : Config} {output : String}
  {tree after : FileTree} {operator : Package × Method} {file : Emission.File}

theorem placeOf_of_renders (named : Generation.Named operator)
    (renders : Emission.Renders config operator file) :
    tree.placeOf (file.under output).path =
      tree.placeOf output ++
        [operator.1.ident.text, operator.2.ident.className ++ ".cpp"] := by
  rw [Generation.path_of_renders named renders, Generation.sourcePath]
  exact FileTree.placeOf_join_names (Ident.isName_of_isValid named.1)
    (Ident.isName_sourceFile named.2) output

theorem start_of_renders (named : Generation.Named operator)
    (renders : Emission.Renders config operator file) :
    tree.start (file.under output).path = tree.start output := by
  have relative : Path.isAbsolute
      (operator.1.ident.text ++ "/" ++ (operator.2.ident.className ++ ".cpp")) = false :=
    Path.isAbsolute_names (Ident.isName_of_isValid named.1)
  rw [Generation.path_of_renders named renders, Generation.sourcePath, FileTree.start,
    FileTree.start, Path.isAbsolute_join relative]

/-- The way to a source file goes on from the output directory, with two names. -/
theorem steps_of_renders (named : Generation.Named operator)
    (renders : Emission.Renders config operator file) :
    Path.steps (file.under output).path =
      Path.steps output ++ [operator.1.ident.text] ++ [operator.2.ident.className ++ ".cpp"] := by
  have directory := Ident.isName_of_isValid named.1
  rw [Generation.path_of_renders named renders, Generation.sourcePath,
    Path.steps_join (Path.isAbsolute_names directory),
    Path.steps_names directory (Ident.isName_sourceFile named.2)]
  simp

/-- The way to a source file goes to the output directory, and through the directory of the
    package. -/
theorem onTheWay_of_renders (named : Generation.Named operator)
    (renders : Emission.Renders config operator file) {place : List String}
    (way : tree.OnTheWay (file.under output).path place) :
    (∃ names, names <+: Path.steps output ∧ place = FileTree.walk (tree.start output) names) ∨
      place = tree.placeOf output ++ [operator.1.ident.text] := by
  obtain ⟨names, passed, further, rfl⟩ := way
  rw [steps_of_renders named renders] at passed further
  rw [start_of_renders named renders]
  -- The last name is not passed; what is left is the output directory with one name behind it.
  rcases List.prefix_concat_iff.mp passed with whole | passed
  · exact absurd whole further
  · rcases List.prefix_concat_iff.mp passed with rfl | passed
    · right
      rw [FileTree.walk_append]
      simp [FileTree.walk, FileTree.enter, FileTree.placeOf,
        (Ident.isName_of_isValid named.1).forward]
    · exact .inl ⟨names, passed, rfl⟩

/-- Writing source files of defined methods touches no other places. -/
theorem confined_of_changes {written attempted : List Emission.File}
    (changes : FileTree.Changes written attempted tree after)
    (sources : ∀ file ∈ written ++ attempted, ∃ operator source, defined operator ∧
      Generation.Named operator ∧ Emission.Renders config operator source ∧
        file = source.under output) :
    Confined defined output tree after := by
  refine ⟨changes.workingDirectory, ?_⟩
  intro place
  by_cases here : ∃ file ∈ written, tree.placeOf file.path = place
  · obtain ⟨file, member, rfl⟩ := here
    obtain ⟨last, inWritten, same, stored⟩ := changes.exists_last member
    obtain ⟨operator, source, belongs, named, renders, rfl⟩ :=
      sources last (List.mem_append_left _ inWritten)
    rw [← same]
    exact .source belongs (placeOf_of_renders named renders) renders.2 stored
  · have elsewhere : ∀ file ∈ written, tree.placeOf file.path ≠ place := by
      intro file member same
      exact here ⟨file, member, same⟩
    rcases changes.others place elsewhere with same | ⟨empty, made, file, member, way⟩
    · exact .kept same
    · obtain ⟨operator, source, belongs, named, renders, rfl⟩ :=
        sources file (List.mem_append_right _ member)
      rcases onTheWay_of_renders named renders way with ⟨names, passed, inside⟩ | inside
      · exact .outputDirectory empty made passed inside
      · exact .packageDirectory empty made belongs inside

end

/-- What is rendered for loaded packages are the sources of methods that the files define. -/
theorem exists_defined {tree : FileTree} {files : List String} {packages : List Package}
    {config : Config} {rendered : List Emission.File} {file : Emission.File}
    (loaded : List.Forall₂ (Loads tree) files packages)
    (renders : Emission.renderPackages config packages = .ok rendered)
    (member : file ∈ rendered) :
    ∃ operator, Defines tree files operator ∧ Emission.Renders config operator file := by
  obtain ⟨operator, inPackages, belongs⟩ :=
    Generation.exists_related (Emission.renderPackages_files renders) member
  obtain ⟨package, method⟩ := operator
  obtain ⟨inPackage, inMethods⟩ := Emission.mem_operators.mp inPackages
  obtain ⟨source, inFiles, loads⟩ := Generation.exists_related loaded inPackage
  have named : Generation.Named (package, method) := by
    have alone : ∀ other ∈ [package], Validation.problems other = [] := by
      obtain ⟨text, _, _, valid⟩ := loads
      simpa using valid
    refine Generation.named_of_valid alone (Emission.mem_operators.mpr ⟨?_, inMethods⟩)
    simp
  exact ⟨(package, method), ⟨named, source, inFiles, loads, inMethods⟩, belongs⟩

/-- The files of a valid package have relative paths of two components, the ident of the
    package and the class of the method with an ending, and neither of them leads anywhere but
    one step down. So a generation, whatever is in the files that it reads and however it ends,
    touches only the places of such files inside its output directory, and those of the
    directories on their way. -/
theorem generation_confined (config : Config) (package : Package) (tree : FileTree)
    (files : List String) (output preset : String) (indent : Option UInt64) :
    (∀ rendered, Validation.problems package = [] →
      Emission.renderPackage config package = .ok rendered →
        List.Forall₂ (fun method file => Path.TwoSteps file.path package.ident.text
          (method.ident.className ++ ".cpp")) package.methods rendered) ∧
      Confined (Defines tree files) output tree
        ((execute FileTree.disk (.generate files output preset indent)).run tree).2 := by
  refine ⟨fun rendered valid done => Emission.twoSteps_of_valid valid done, ?_⟩
  have confined : ∀ {config : Config} {packages : List Package}
      {rendered written attempted : List Emission.File} {after : FileTree},
      List.Forall₂ (Loads tree) files packages →
      Emission.renderPackages config packages = .ok rendered →
      FileTree.Changes written attempted tree after →
      (∀ file ∈ written ++ attempted, file ∈ rendered.map (.under output)) →
        Confined (Defines tree files) output tree after := by
    intro config packages rendered written attempted after loaded renders changes among
    have sources : ∀ file ∈ written ++ attempted, ∃ operator source, Defines tree files operator ∧
        Generation.Named operator ∧ Emission.Renders config operator source ∧
          file = source.under output := by
      intro file member
      obtain ⟨source, inRendered, rfl⟩ := List.mem_map.mp (among file member)
      obtain ⟨operator, belongs, ofSource⟩ := exists_defined loaded renders inRendered
      exact ⟨operator, source, belongs, belongs.1, ofSource, rfl⟩
    exact confined_of_changes changes sources
  have run := generate_run tree files output preset indent
  generalize (execute FileTree.disk (.generate files output preset indent)).run tree = ended at run
  obtain ⟨result, after⟩ := ended
  cases run with
  | unknownPreset unknown => exact .refl
  | unloadable known first => exact .refl
  | unrenderable known loaded first => exact .refl
  | written known loaded renders writes =>
    cases writes with
    | all changes =>
      apply confined loaded renders changes
      intro file member
      rcases List.mem_append.mp member with written | attempted
      · exact written
      · exact attempted
  | unwritable known loaded renders writes =>
    cases writes with
    | refused split reaches refuses changes =>
      apply confined loaded renders changes
      intro file member
      simp only [List.mem_append, List.mem_singleton] at member
      rw [split, List.mem_append, List.mem_cons]
      rcases member with written | written | rfl
      · exact .inl written
      · exact .inl written
      · exact .inr (.inl rfl)

/-- A tree with one definition file, which defines one method. -/
def visionTree : FileTree where
  entries := [(["vision.json"], .file (.text
    "\x7b\"ident\":\"vision\",\"version\":[1,0,0],\"methods\":[\x7b\"ident\":\"blur\"\x7d]\x7d"))]
  workingDirectory := []

/-- A package with two files, and a run that succeeds. -/
theorem visionTree_confined :
    Validation.problems (Generation.pairPackage "blur" "median") = [] ∧
      (∃ rendered, Emission.renderPackage .standard (Generation.pairPackage "blur" "median") =
          .ok rendered ∧
        List.Forall₂ (fun method file => Path.TwoSteps file.path "vision"
          (method.ident.className ++ ".cpp"))
          (Generation.pairPackage "blur" "median").methods rendered) ∧
      ((execute FileTree.disk (.generate ["vision.json"] "out" "opencv" none)).run
        visionTree).1.toOption = some "" ∧
      Confined (Defines visionTree ["vision.json"]) "out" visionTree
        ((execute FileTree.disk (.generate ["vision.json"] "out" "opencv" none)).run
          visionTree).2 := by
  have valid : Validation.problems (Generation.pairPackage "blur" "median") = [] := by decide
  obtain ⟨rendered, done⟩ : ∃ rendered, Emission.renderPackage .standard
      (Generation.pairPackage "blur" "median") = .ok rendered := ⟨_, rfl⟩
  obtain ⟨paths, confined⟩ := generation_confined .standard
    (Generation.pairPackage "blur" "median") visionTree ["vision.json"] "out" "opencv" none
  exact ⟨valid, ⟨rendered, done, paths rendered valid done⟩, by decide +kernel, confined⟩

end CommandLine
end OperatorGen
