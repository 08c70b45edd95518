import Mathlib.Data.List.TakeWhile
import OperatorGen.Text.Path

/-!
# Pieces of paths

Splitting at slashes undoes putting slashes between pieces (`pieces_ofReversed`), and the
steps of a joined path are those of its two parts (`steps_join`). Whether a path begins at
the root can be seen from its pieces (`isAbsolute_iff`), so a part of a path from its front
begins where the whole does (`isAbsolute_ofReversed`).
-/
namespace OperatorGen.Path

/-! ## Characters -/

theorem splitChars_ne_nil (chars : List Char) : splitChars chars ≠ [] := by
  cases chars with
  | nil => exact List.cons_ne_nil _ _
  | cons c rest =>
    rw [splitChars]
    split
    · exact List.cons_ne_nil _ _
    · split
      · exact List.cons_ne_nil _ _
      · exact List.cons_ne_nil _ _

theorem splitChars_slash (rest : List Char) : splitChars ('/' :: rest) = [] :: splitChars rest := by
  simp [splitChars]

/-- A character that is no slash goes to the first piece. -/
theorem splitChars_cons {c : Char} (rest : List Char) (other : c ≠ '/') :
    ∃ piece pieces, splitChars rest = piece :: pieces ∧
      splitChars (c :: rest) = (c :: piece) :: pieces := by
  rw [splitChars, if_neg other]
  rcases split : splitChars rest with _ | ⟨piece, pieces⟩
  · exact absurd split (splitChars_ne_nil rest)
  · exact ⟨piece, pieces, rfl, rfl⟩

theorem splitChars_append_slash (first second : List Char) :
    splitChars (first ++ '/' :: second) = splitChars first ++ splitChars second := by
  induction first with
  | nil => exact splitChars_slash second
  | cons c rest ih =>
    rw [List.cons_append]
    by_cases slash : c = '/'
    · rw [slash, splitChars_slash, splitChars_slash, ih, List.cons_append]
    · obtain ⟨piece, pieces, whole, split⟩ := splitChars_cons (rest ++ '/' :: second) slash
      obtain ⟨piece', pieces', part, split'⟩ := splitChars_cons rest slash
      rw [ih, part, List.cons_append] at whole
      cases whole
      rw [split, split', List.cons_append]

theorem splitChars_of_no_slash {chars : List Char} (none : '/' ∉ chars) :
    splitChars chars = [chars] := by
  induction chars with
  | nil => rfl
  | cons c rest ih =>
    rw [List.mem_cons, not_or] at none
    obtain ⟨piece, pieces, whole, split⟩ := splitChars_cons rest (Ne.symm none.1)
    rw [ih none.2] at whole
    cases whole
    exact split

theorem no_slash_of_mem_splitChars {chars piece : List Char} (member : piece ∈ splitChars chars) :
    '/' ∉ piece := by
  induction chars generalizing piece with
  | nil =>
    obtain rfl := List.mem_singleton.mp member
    exact List.not_mem_nil
  | cons c rest ih =>
    by_cases slash : c = '/'
    · rw [slash, splitChars_slash] at member
      rcases List.mem_cons.mp member with rfl | later
      · exact List.not_mem_nil
      · exact ih later
    · obtain ⟨first, others, whole, split⟩ := splitChars_cons rest slash
      rw [whole] at ih
      rw [split] at member
      rcases List.mem_cons.mp member with rfl | later
      · rw [List.mem_cons, not_or]
        exact ⟨Ne.symm slash, ih List.mem_cons_self⟩
      · exact ih (List.mem_cons_of_mem _ later)

theorem splitChars_intercalate {pieces : List (List Char)} (some : pieces ≠ [])
    (plain : ∀ piece ∈ pieces, '/' ∉ piece) : splitChars (['/'].intercalate pieces) = pieces := by
  induction pieces with
  | nil => exact absurd rfl some
  | cons first rest ih =>
    have alone : splitChars first = [first] := splitChars_of_no_slash (plain first (by simp))
    cases rest with
    | nil => rw [List.intercalate_singleton, alone]
    | cons second others =>
      have tail := ih (List.cons_ne_nil _ _) fun piece member => plain piece (by simp [member])
      rw [List.intercalate_cons_cons, List.append_assoc, List.singleton_append,
        splitChars_append_slash, alone, tail, List.singleton_append]

/-- Characters are the pieces that they are split into, with slashes between them. -/
theorem intercalate_splitChars (chars : List Char) :
    ['/'].intercalate (splitChars chars) = chars := by
  induction chars with
  | nil => rfl
  | cons c rest ih =>
    by_cases slash : c = '/'
    · obtain ⟨piece, pieces, split⟩ := List.exists_cons_of_ne_nil (splitChars_ne_nil rest)
      rw [slash, splitChars_slash, split, List.intercalate_cons_cons, ← split, ih]
      rfl
    · obtain ⟨piece, pieces, whole, split⟩ := splitChars_cons rest slash
      rw [whole] at ih
      rw [split, ← ih]
      cases pieces with
      | nil => rw [List.intercalate_singleton, List.intercalate_singleton]
      | cons second others =>
        rw [List.intercalate_cons_cons, List.intercalate_cons_cons, List.cons_append,
          List.cons_append]

/-- Pieces from the front are put together to the front of the whole. -/
theorem intercalate_prefix {α : Type} (separator : List α) {front whole : List (List α)}
    (part : front <+: whole) : separator.intercalate front <+: separator.intercalate whole := by
  induction front generalizing whole with
  | nil => exact List.nil_prefix
  | cons first rest ih =>
    obtain ⟨others, rfl⟩ := part
    cases rest with
    | nil =>
      rw [List.intercalate_singleton, List.singleton_append]
      cases others with
      | nil => exact ⟨[], (List.append_nil _).trans List.intercalate_singleton.symm⟩
      | cons second others =>
        rw [List.intercalate_cons_cons, List.append_assoc]
        exact List.prefix_append _ _
    | cons second rest =>
      rw [List.cons_append, List.cons_append, List.intercalate_cons_cons,
        List.intercalate_cons_cons, List.prefix_append_right_inj]
      exact ih (List.prefix_append (second :: rest) others)

/-! ## Texts -/

theorem no_slash_of_mem_pieces {path piece : String} (member : piece ∈ pieces path) :
    '/' ∉ piece.toList := by
  obtain ⟨chars, split, rfl⟩ := List.mem_map.mp member
  rw [String.toList_ofList]
  exact no_slash_of_mem_splitChars split

theorem pieces_append_slash (first second : String) :
    pieces (first ++ "/" ++ second) = pieces first ++ pieces second := by
  have chars : (first ++ "/" ++ second).toList = first.toList ++ '/' :: second.toList := by
    simp [String.toList_append]
  rw [pieces, chars, splitChars_append_slash, List.map_append, pieces, pieces]

theorem pieces_of_no_slash {path : String} (none : '/' ∉ path.toList) : pieces path = [path] := by
  rw [pieces, splitChars_of_no_slash none, List.map_singleton, String.ofList_toList]

theorem toList_ofReversed (reversed : List String) :
    (ofReversed reversed).toList = ['/'].intercalate (reversed.reverse.map String.toList) := by
  rw [ofReversed, String.toList_intercalate]
  rfl

/-- Pieces that are put together are found again. -/
theorem pieces_ofReversed {reversed : List String} (some : reversed ≠ [])
    (plain : ∀ piece ∈ reversed, '/' ∉ piece.toList) :
    pieces (ofReversed reversed) = reversed.reverse := by
  rw [pieces, toList_ofReversed, splitChars_intercalate, List.map_map]
  · simp [Function.comp_def]
  · simpa using some
  · simpa using plain

/-- So are pieces from the front of a path. -/
theorem pieces_ofReversed_part {path : String} {reversed : List String} (some : reversed ≠ [])
    (part : reversed.reverse <+: pieces path) : pieces (ofReversed reversed) = reversed.reverse :=
  pieces_ofReversed some fun _ member =>
    no_slash_of_mem_pieces (part.subset (List.mem_reverse.mpr member))

theorem steps_ofReversed {path : String} {reversed : List String} (some : reversed ≠ [])
    (part : reversed.reverse <+: pieces path) :
    steps (ofReversed reversed) = reversed.reverse.filter isStep := by
  rw [steps, pieces_ofReversed_part some part]

/-- The path of pieces from the front of a path stands at its front. -/
theorem ofReversed_prefix {path : String} {reversed : List String}
    (part : reversed.reverse <+: pieces path) : (ofReversed reversed).toList <+: path.toList := by
  have split : (pieces path).map String.toList = splitChars path.toList := by
    rw [pieces, List.map_map]
    simp [Function.comp_def]
  rw [toList_ofReversed, ← intercalate_splitChars path.toList, ← split]
  exact intercalate_prefix _ (part.map _)

theorem isAbsolute_iff_chars {path : String} :
    isAbsolute path = true ↔ ∃ rest, path.toList = '/' :: rest := by
  rw [isAbsolute, String.startsWith_string_iff]
  constructor
  · rintro ⟨rest, same⟩
    exact ⟨rest, same.symm⟩
  · rintro ⟨rest, same⟩
    exact ⟨rest, same.symm⟩

/-- A path begins at the root if its first piece is empty and not the only one. -/
theorem isAbsolute_iff {path : String} :
    isAbsolute path = true ↔ ∃ rest, rest ≠ [] ∧ pieces path = "" :: rest := by
  rw [isAbsolute_iff_chars]
  constructor
  · rintro ⟨rest, same⟩
    refine ⟨(splitChars rest).map String.ofList, by simp [splitChars_ne_nil], ?_⟩
    rw [pieces, same, splitChars_slash]
    rfl
  · rintro ⟨rest, some, same⟩
    rcases chars : path.toList with _ | ⟨c, others⟩
    · rw [pieces, chars] at same
      cases same
      exact absurd rfl some
    · by_cases slash : c = '/'
      · exact ⟨others, by rw [slash]⟩
      · obtain ⟨piece, pieces, -, split⟩ := splitChars_cons others slash
        rw [Path.pieces, chars, split, List.map_cons, List.cons.injEq] at same
        have empty := congrArg String.toList same.1
        rw [String.toList_ofList] at empty
        cases empty

/-- A part of a path from its front, with a step at its end, begins where the path begins. -/
theorem isAbsolute_ofReversed {path piece : String} {before : List String}
    (part : (piece :: before).reverse <+: pieces path) (step : isStep piece = true) :
    isAbsolute (ofReversed (piece :: before)) = isAbsolute path := by
  have named : piece ≠ "" := fun empty => by simp [isStep, empty] at step
  rw [Bool.eq_iff_iff, isAbsolute_iff, isAbsolute_iff,
    pieces_ofReversed_part (List.cons_ne_nil _ _) part]
  obtain ⟨rest, whole⟩ := part
  rw [← whole]
  rw [List.reverse_cons]
  -- What counts is the first piece, which is the step itself if nothing stands before it.
  rcases front : before.reverse with _ | ⟨first, others⟩
  · simp [named]
  · simp

/-! ## What stands before the last name -/

theorem reversedParent_prefix (path : String) : (reversedParent path).reverse <+: pieces path := by
  rw [← List.reverse_suffix, List.reverse_reverse, reversedParent]
  exact (List.tail_suffix _).trans (List.dropWhile_suffix _)

theorem reversedParent_of_no_steps {path : String} (none : steps path = []) :
    reversedParent path = [] := by
  rw [steps, List.filter_eq_nil_iff] at none
  have all : ∀ piece ∈ (pieces path).reverse, (!isStep piece) = true := by simpa using none
  rw [reversedParent, List.dropWhile_eq_nil_iff.mpr all, List.tail_nil]

/-- What stands before the last name of a path leads through all its names but the last. -/
theorem steps_reversedParent (path : String) :
    (reversedParent path).reverse.filter isStep = (steps path).dropLast := by
  have same : ∀ reversed : List String,
      (reversed.dropWhile fun piece => !isStep piece).tail.filter isStep =
        (reversed.filter isStep).tail := by
    intro reversed
    induction reversed with
    | nil => rfl
    | cons piece rest ih =>
      by_cases step : isStep piece = true
      · rw [List.dropWhile_cons_of_neg (by simp [step]), List.filter_cons_of_pos step,
          List.tail_cons, List.tail_cons]
      · rw [List.dropWhile_cons_of_pos (by simp [step]), List.filter_cons_of_neg step, ih]
  rw [List.filter_reverse, reversedParent, same, steps, ← List.dropLast_reverse,
    ← List.filter_reverse, List.reverse_reverse]

/-! ## Joined paths -/

section
variable {first second : String}

/-- A joined path is its two parts with a slash between them, unless the first part is empty or
    brings a slash of its own. -/
theorem join_cases (first : String) (relative : isAbsolute second = false) :
    (first = "" ∧ join first second = second) ∨
      (∃ front, first = front ++ "/" ∧ join first second = first ++ second) ∨
      (first ≠ "" ∧ join first second = first ++ "/" ++ second) := by
  have start : second.startsWith "/" = false := relative
  by_cases empty : first = ""
  · exact .inl ⟨empty, by simp [join, start, empty]⟩
  · right
    by_cases slash : first.endsWith "/" = true
    · left
      have joined : join first second = first ++ second := by simp [join, start, slash]
      rw [← String.endsWith_toSlice, String.Slice.endsWith_string_iff, String.copy_toSlice] at slash
      obtain ⟨front, same⟩ := slash
      refine ⟨String.ofList front, ?_, joined⟩
      simp [← String.toList_inj, ← same]
    · right
      exact ⟨empty, by simp [join, start, empty, slash]⟩

theorem steps_append_slash : steps (first ++ "/" ++ second) = steps first ++ steps second := by
  rw [steps, pieces_append_slash, List.filter_append, steps, steps]

theorem steps_join (relative : isAbsolute second = false) :
    steps (join first second) = steps first ++ steps second := by
  rcases join_cases first relative with ⟨rfl, joined⟩ | ⟨front, rfl, joined⟩ | ⟨-, joined⟩
  · rw [joined]
    rfl
  · have own : steps (front ++ "/") = steps front := by
      have closed : steps (front ++ "/" ++ "") = steps front ++ steps "" := steps_append_slash
      rwa [String.append_empty, show steps "" = [] from rfl, List.append_nil] at closed
    rw [joined, own, steps_append_slash]
  · rw [joined, steps_append_slash]

theorem isAbsolute_append (some : first ≠ "") :
    isAbsolute (first ++ second) = isAbsolute first := by
  rw [Bool.eq_iff_iff, isAbsolute_iff_chars, isAbsolute_iff_chars, String.toList_append]
  rcases chars : first.toList with _ | ⟨c, rest⟩
  · exact absurd (String.toList_inj.mp chars) some
  · simp

theorem isAbsolute_join (relative : isAbsolute second = false) :
    isAbsolute (join first second) = isAbsolute first := by
  rcases join_cases first relative with ⟨rfl, joined⟩ | ⟨front, rfl, joined⟩ | ⟨some, joined⟩
  · rw [joined, relative]
    rfl
  · have some : front ++ "/" ≠ "" := fun empty => by
      have chars := congrArg String.toList empty
      simp [String.toList_append] at chars
    rw [joined, isAbsolute_append some]
  · rw [joined, String.append_assoc, isAbsolute_append some]

theorem wantsDirectory_append_slash :
    wantsDirectory (first ++ "/" ++ second) = wantsDirectory second := by
  have chars : (first ++ "/" ++ second).toList = first.toList ++ '/' :: second.toList := by
    simp [String.toList_append]
  have last : (splitChars first.toList ++ splitChars second.toList).getLast? =
      (splitChars second.toList).getLast? := by
    rw [List.getLast?_append]
    rcases split : splitChars second.toList with _ | ⟨piece, others⟩
    · exact absurd split (splitChars_ne_nil _)
    · rw [List.getLast?_eq_some_getLast (List.cons_ne_nil _ _), Option.some_or]
  rw [wantsDirectory, chars, splitChars_append_slash, last, wantsDirectory]

theorem wantsDirectory_join (relative : isAbsolute second = false) :
    wantsDirectory (join first second) = wantsDirectory second := by
  rcases join_cases first relative with ⟨rfl, joined⟩ | ⟨front, rfl, joined⟩ | ⟨-, joined⟩
  · rw [joined]
  · rw [joined, wantsDirectory_append_slash]
  · rw [joined, wantsDirectory_append_slash]

end

/-! ## Names -/

/-- A text that leads one step forward. -/
structure IsName (name : String) : Prop where
  plain : '/' ∉ name.toList
  some : name ≠ ""
  point : name ≠ "."
  forward : name ≠ ".."

section
variable {name first second : String}

theorem IsName.steps (isName : IsName name) : steps name = [name] := by
  rw [Path.steps, pieces_of_no_slash isName.plain]
  simp [isStep, isName.some, isName.point]

theorem IsName.relative (isName : IsName name) : isAbsolute name = false := by
  rw [Bool.eq_false_iff, ne_eq, isAbsolute_iff_chars]
  rintro ⟨rest, chars⟩
  exact isName.plain (by simp [chars])

theorem IsName.wantsDirectory (isName : IsName name) : wantsDirectory name = false := by
  have some : name.toList ≠ [] := fun empty => isName.some (String.toList_inj.mp empty)
  have other : name.toList ≠ ['.'] := fun point => isName.point (String.toList_inj.mp point)
  rw [Path.wantsDirectory, splitChars_of_no_slash isName.plain]
  simp [some, other]

/-- Two names with a slash between them lead two steps forward. -/
theorem steps_names (directory : IsName first) (file : IsName second) :
    steps (first ++ "/" ++ second) = [first, second] := by
  rw [steps_append_slash, directory.steps, file.steps, List.singleton_append]

theorem isAbsolute_names (directory : IsName first) :
    isAbsolute (first ++ "/" ++ second) = false := by
  rw [String.append_assoc, isAbsolute_append directory.some, directory.relative]

/-- A name joined with a name needs the slash between them. -/
theorem join_names (directory : IsName first) (file : IsName second) :
    join first second = first ++ "/" ++ second := by
  rcases join_cases first file.relative with ⟨empty, -⟩ | ⟨front, slash, -⟩ | ⟨-, joined⟩
  · exact absurd empty directory.some
  · have member : '/' ∈ first.toList := by simp [slash]
    exact absurd member directory.plain
  · exact joined

end

end OperatorGen.Path
