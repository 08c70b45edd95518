import OperatorGen.Proofs.Document
import OperatorGen.Proofs.Emission.Nesting
import OperatorGen.Proofs.Emission.Sections
import OperatorGen.Proofs.Ident
import OperatorGen.Proofs.Validation.Validity

/-!
# Headers of files

A file begins with the display name and the documentation of its method, which are free text,
and then includes the header of the operator. All of that is seen here line by line, a line
ending at a line feed. The documentation is taken apart into its lines, and each becomes a
comment. The name is put behind one comment mark as it is, so its later lines stand in the
file by themselves: all that is in front of the included header is comments exactly if those
lines happen to be comments (`rendered_header`). Nothing behind it depends on either text.
-/
namespace OperatorGen

/-! ## Lines at the outermost level -/

/-- Texts that are emitted as lines at the outermost level are not indented. -/
theorem Step.map_chars_linesFrom (indentWidth : UInt64) (texts : List String) (rest : List Step) :
    (linesFrom 0 (texts.map .line ++ rest)).map (TextLine.chars indentWidth) =
      (texts.flatMap fun text => textLines text.toList) ++
        (linesFrom 0 rest).map (TextLine.chars indentWidth) := by
  induction texts with
  | nil => rfl
  | cons text others ih =>
    have own : ((line text).lines 0).map (TextLine.chars indentWidth) = textLines text.toList := by
      rcases split : textLines text.toList with _ | ⟨first, others⟩
      · exact absurd split (textLines_ne_nil text.toList)
      · simp [lines, split, TextLine.chars, Function.comp_def]
    have split : linesFrom 0 ((text :: others).map line ++ rest) =
        (line text).lines 0 ++ linesFrom 0 (others.map line ++ rest) := rfl
    rw [split, List.map_append, ih, own, List.flatMap_cons, List.append_assoc]

namespace Emission

/-! ## Comments -/

/-- What stands in front of a comment. -/
def commentMark : List Char :=
  "// ".toList

/-- A line is a comment from its beginning. -/
def IsComment (line : List Char) : Prop :=
  commentMark <+: line

instance : DecidablePred IsComment := fun _ => inferInstanceAs (Decidable (_ <+: _))

/-- The lines of a file in front of a line are comments. -/
def CommentsBefore (line : List Char) (text : String) : Prop :=
  ∀ other ∈ (textLines text.toList).takeWhile (· ≠ line), IsComment other

/-- The line that includes the header of an operator. -/
def includeLine (package : Package) (method : Method) : List Char :=
  ("#include \"" ++ package.ident.text ++ "/" ++ method.ident.className ++ ".h\"").toList

/-- The lines of the display name and the documentation in a file. There is one comment mark in
    front of the name, and one in front of each line of the documentation. -/
def headerLines (method : Method) : List (List Char) :=
  (if method.name = "" then []
    else (textLines method.name.toList).modifyHead (commentMark ++ ·)) ++
    (Lines.split method.doc).map fun line => commentMark ++ line.toList

variable {config : Config} {package : Package} {method : Method}

/-- The texts of which the comments of a header are made. -/
def headerTexts (method : Method) : List String :=
  (if method.name.isEmpty then [] else [method.name]) ++ Lines.split method.doc

theorem header_eq (method : Method) :
    header method = ((headerTexts method).map ("// " ++ ·)).map .line := by
  rw [header, headerTexts, List.map_map, List.map_append]
  congr 1
  split <;> rfl

theorem textLines_comment (text : String) :
    textLines ("// " ++ text).toList = (textLines text.toList).modifyHead (commentMark ++ ·) := by
  rw [String.toList_append]
  exact textLines_append (by decide) _

theorem flatMap_headerTexts (method : Method) :
    ((headerTexts method).flatMap fun text => textLines ("// " ++ text).toList) =
      headerLines method := by
  have whole : ∀ line ∈ Lines.split method.doc, '\n' ∉ line.toList := by
    intro line member
    obtain ⟨chars, inDoc, rfl⟩ := List.mem_map.mp member
    rw [String.toList_ofList]
    exact Lines.not_mem_of_mem_splitFrom List.not_mem_nil chars inDoc
  have single : ∀ line ∈ Lines.split method.doc,
      textLines ("// " ++ line).toList = [commentMark ++ line.toList] := by
    intro line member
    rw [textLines_comment, textLines_of_not_mem (whole line member)]
    rfl
  rw [headerTexts, headerLines, List.flatMap_append, List.flatMap_congr single,
    List.map_eq_flatMap]
  congr 1
  by_cases empty : method.name = ""
  · rw [if_pos empty, if_pos (String.isEmpty_iff.mpr empty), List.flatMap_nil]
  · rw [if_neg empty, if_neg (mt String.isEmpty_iff.mp empty), List.flatMap_singleton,
      textLines_comment]

/-- The lines of a file behind the included header. -/
def bodyLines (config : Config) (package : Package) (method : Method) (parts : Parts) :
    List (List Char) :=
  (Step.linesFrom 0 ([Step.blank, .line ("namespace " ++ package.ident.text)] ++
    Step.scope (content config package method parts))).map (TextLine.chars config.indentWidth) ++
    [[]]

/-- A file is its header, the line that includes the header of the operator, and its body. -/
theorem textLines_fileSteps (parts : Parts) (whole : '\n' ∉ includeLine package method) :
    textLines (Document.render config.indentWidth
        (fileSteps config package method parts)).toList =
      headerLines method ++ includeLine package method ::
        bodyLines config package method parts := by
  have steps : fileSteps config package method parts =
      ((headerTexts method).map ("// " ++ ·)).map .line ++
        ([String.ofList (includeLine package method)].map .line ++
          ([Step.blank, .line ("namespace " ++ package.ident.text)] ++
            Step.scope (content config package method parts))) := by
    rw [fileSteps, header_eq, includeLine, String.ofList_toList]
    simp [includeStep]
  rw [Document.textLines_render, steps, Step.map_chars_linesFrom, Step.map_chars_linesFrom,
    List.flatMap_map, flatMap_headerTexts, List.flatMap_singleton, String.toList_ofList,
    textLines_of_not_mem whole, List.append_assoc, List.append_assoc]
  rfl

/-- The line that includes a header is one line in a valid package, and no comment. -/
theorem includeLine_whole (valid : Validation.problems package = [])
    (member : method ∈ package.methods) : '\n' ∉ includeLine package method := by
  have names := Validation.problems_eq_nil_iff.mp valid
  have inPackage : '\n' ∉ package.ident.text.toList :=
    Ident.not_mem_of_isValid names.ident (by decide +kernel)
  have inClass : '\n' ∉ method.ident.className.toList :=
    Ident.not_mem_className
      (Ident.not_mem_of_isValid (names.methods method member).ident (by decide +kernel)) (by decide)
  simp [includeLine, inPackage, inClass]

theorem not_isComment_includeLine (package : Package) (method : Method) :
    ¬ IsComment (includeLine package method) := by
  rintro ⟨rest, same⟩
  simp [includeLine, commentMark] at same

/-! ## What stands in front of the included header -/

/-- A name gives no lines, or a comment and the lines of the name behind its first. -/
theorem nameLines_cases (name : String) :
    let lines := if name = "" then []
      else (textLines name.toList).modifyHead (commentMark ++ ·)
    lines = (textLines name.toList).tail ∨
      ∃ first, IsComment first ∧ lines = first :: (textLines name.toList).tail := by
  intro lines
  by_cases empty : name = ""
  · left
    simp [lines, empty, textLines]
  · right
    rcases split : textLines name.toList with _ | ⟨first, others⟩
    · exact absurd split (textLines_ne_nil _)
    · refine ⟨commentMark ++ first, List.prefix_append _ _, ?_⟩
      rw [show lines = _ from if_neg empty, split, List.modifyHead_cons, List.tail_cons]

theorem isComment_docLines (doc : String) :
    ∀ line ∈ (Lines.split doc).map (fun line => commentMark ++ line.toList), IsComment line :=
  List.forall_mem_map.mpr fun _ _ => List.prefix_append _ _

/-- Of the lines of a header only those of the name behind its first can be no comments. -/
theorem headerLines_iff (method : Method) :
    (∀ line ∈ headerLines method, IsComment line) ↔
      ∀ line ∈ (textLines method.name.toList).tail, IsComment line := by
  rw [headerLines, List.forall_mem_append, and_iff_left (isComment_docLines method.doc)]
  rcases nameLines_cases method.name with same | ⟨first, comment, same⟩
  · rw [same]
  · rw [same, List.forall_mem_cons]
    exact and_iff_right comment

/-- Comments in front of a line that is none do not matter for whether all in front of it are
    comments, be they in view or not. -/
theorem forall_takeWhile_iff {stop : List Char} (noComment : ¬ IsComment stop)
    {comments : List (List Char)} (all : ∀ line ∈ comments, IsComment line)
    (names rest : List (List Char)) :
    (∀ line ∈ (names ++ (comments ++ stop :: rest)).takeWhile (· ≠ stop), IsComment line) ↔
      ∀ line ∈ names.takeWhile (· ≠ stop), IsComment line := by
  induction names with
  | nil =>
    rw [List.nil_append, List.takeWhile_append_of_pos]
    · simpa using all
    · intro line member
      exact decide_eq_true fun same => noComment (same ▸ all line member)
  | cons name others ih =>
    by_cases same : name = stop
    · simp [same]
    · simpa [same] using fun _ => ih

/-- The lines in front of the included header are comments exactly if those of the name are, as far
    as the name does not include that header itself. -/
theorem commentsBefore_iff {text : String} {rest : List (List Char)}
    (lines : textLines text.toList = headerLines method ++ includeLine package method :: rest) :
    CommentsBefore (includeLine package method) text ↔
      ∀ line ∈ (textLines method.name.toList).tail.takeWhile (· ≠ includeLine package method),
        IsComment line := by
  have noComment := not_isComment_includeLine package method
  rw [CommentsBefore, lines, headerLines, List.append_assoc,
    forall_takeWhile_iff noComment (isComment_docLines method.doc)]
  rcases nameLines_cases method.name with same | ⟨first, comment, same⟩
  · rw [same]
  · have other : first ≠ includeLine package method := fun equal => noComment (equal ▸ comment)
    rw [same, List.takeWhile_cons, if_pos (decide_eq_true other), List.forall_mem_cons]
    exact and_iff_right comment

/-- A file that is rendered has its header in front of the line that includes the header of the
    operator, and behind that line lines on which the header has no influence. -/
theorem exists_bodyLines {text : String} (valid : Validation.problems package = [])
    (member : method ∈ package.methods)
    (rendered : renderMethod config package method = .ok text) :
    ∃ body,
      textLines text.toList = headerLines method ++ includeLine package method :: body ∧
      ∀ name doc, ∃ other,
        renderMethod config package { method with name, doc } = .ok other ∧
        textLines other.toList =
          headerLines { method with name, doc } ++ includeLine package method :: body := by
  obtain ⟨parts, made, rfl⟩ := renderMethod_ok_iff.mp rendered
  have whole : '\n' ∉ includeLine package method := includeLine_whole valid member
  refine ⟨bodyLines config package method parts, textLines_fileSteps parts whole,
    fun name doc => ⟨_, renderMethod_ok_iff.mpr ⟨parts, made, rfl⟩, ?_⟩⟩
  exact textLines_fileSteps parts whole

/-- In a valid package the display name and the documentation of a method are only in front of the
    line that includes the header of the operator. Every line there is a comment exactly if the
    lines of the name behind its first are comments by themselves; the documentation does not
    matter, nor does anything behind that line depend on the two texts. -/
theorem rendered_header {text : String} (valid : Validation.problems package = [])
    (member : method ∈ package.methods)
    (rendered : renderMethod config package method = .ok text) :
    (∃ body,
      textLines text.toList = headerLines method ++ includeLine package method :: body ∧
      ∀ name doc, ∃ other,
        renderMethod config package { method with name, doc } = .ok other ∧
        textLines other.toList =
          headerLines { method with name, doc } ++ includeLine package method :: body) ∧
    ((∀ line ∈ headerLines method, IsComment line) ↔
      ∀ line ∈ (textLines method.name.toList).tail, IsComment line) ∧
    (CommentsBefore (includeLine package method) text ↔
      ∀ line ∈ (textLines method.name.toList).tail.takeWhile (· ≠ includeLine package method),
        IsComment line) := by
  obtain ⟨body, lines, others⟩ := exists_bodyLines valid member rendered
  exact ⟨⟨body, lines, others⟩, headerLines_iff method, commentsBefore_iff lines⟩

/-- A method that has no options, with a display name and documentation of two lines. -/
def namedMethod (name : String) : Method where
  ident := ⟨"blur"⟩
  name
  doc := "Smooths\r\nan image"
  options := []

/-- The package of such a method. -/
def namedPackage (name : String) : Package where
  ident := ⟨"vision"⟩
  version := ⟨1, 0, 0⟩
  methods := [namedMethod name]

/-- The header of a method with a name of one line consists of comments. -/
theorem namedPackage_header :
    Validation.problems (namedPackage "Blur") = [] ∧
      ∃ text, renderMethod .standard (namedPackage "Blur") (namedMethod "Blur") = .ok text ∧
        CommentsBefore (includeLine (namedPackage "Blur") (namedMethod "Blur")) text := by
  have valid : Validation.problems (namedPackage "Blur") = [] := by decide
  obtain ⟨text, rendered⟩ : ∃ text,
      renderMethod .standard (namedPackage "Blur") (namedMethod "Blur") = .ok text := ⟨_, rfl⟩
  obtain ⟨-, -, comments⟩ := rendered_header valid (by simp [namedPackage]) rendered
  exact ⟨valid, text, rendered, comments.mpr (by decide)⟩

/-- A name may leave its comment: what stands in its second line is emitted as code. -/
theorem name_leaves_comment :
    ¬ ∀ (config : Config) (package : Package) (method : Method) (text : String),
      Validation.problems package = [] → method ∈ package.methods →
        renderMethod config package method = .ok text →
          CommentsBefore (includeLine package method) text := by
  intro comments
  have valid : Validation.problems (namedPackage "Blur\nint x;") = [] := by decide
  have member : namedMethod "Blur\nint x;" ∈ (namedPackage "Blur\nint x;").methods := by
    simp [namedPackage]
  obtain ⟨text, rendered⟩ : ∃ text, renderMethod .standard (namedPackage "Blur\nint x;")
      (namedMethod "Blur\nint x;") = .ok text := ⟨_, rfl⟩
  obtain ⟨body, lines, -⟩ := exists_bodyLines valid member rendered
  exact absurd ((commentsBefore_iff lines).mp (comments _ _ _ text valid member rendered))
    (by decide)

end Emission
end OperatorGen
