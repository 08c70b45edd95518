import OperatorGen.Proofs.Document
import OperatorGen.Proofs.Emission.Files
import OperatorGen.Proofs.Emission.Sections

/-!
# Layout of files

The width of a level is looked at by documents only, so what is emitted for a package is the
same for every width (`drafts_congr`), and so is the layout of each file: a line has a level,
some spaces of its own and a text, and a width gives it the spaces of its level in front.
Whether a line is empty does not depend on the width, but for the first line of a text that
begins with a line feed: it is indented like any other, and has nothing else in it.
-/
namespace OperatorGen

/-! ## Layout of steps -/

/-- A line of a layout: which line of which emitted text it is, its level, how many spaces it
    begins with of its own, and what stands behind them. -/
structure LayoutLine where
  source : String
  index : Nat
  level : Nat
  own : Nat
  text : List Char
  deriving DecidableEq, Repr

namespace LayoutLine

def ofTextLine (source : String) (index : Nat) (line : TextLine) : LayoutLine where
  source
  index
  level := line.level
  own := (line.text.takeWhile (· == ' ')).length
  text := line.text.dropWhile (· == ' ')

/-- The characters of a line, given the width of a level. -/
def chars (width : Nat) (line : LayoutLine) : List Char :=
  List.replicate (line.level * width + line.own) ' ' ++ line.text

/-- The line that a text has in front of a line feed with which it begins. -/
def IsFeed (line : LayoutLine) : Prop :=
  line.index = 0 ∧ line.source.toList.head? = some '\n'

theorem head?_text (source : String) (index : Nat) (line : TextLine) :
    (ofTextLine source index line).text.head? ≠ some ' ' := by
  intro space
  have stopped := List.head?_dropWhile_not (· == ' ') line.text
  rw [show line.text.dropWhile (· == ' ') = (ofTextLine source index line).text from rfl,
    space] at stopped
  cases stopped

/-- Without the indentation of its level, a line is as it was emitted. -/
theorem own_append_text (source : String) (index : Nat) (line : TextLine) :
    List.replicate (ofTextLine source index line).own ' ' ++
      (ofTextLine source index line).text = line.text := by
  have own : List.replicate (line.text.takeWhile (· == ' ')).length ' ' =
      line.text.takeWhile (· == ' ') := by
    refine (List.eq_replicate_of_mem fun c member => ?_).symm
    simpa using List.all_eq_true.mp List.all_takeWhile c member
  rw [ofTextLine, own, List.takeWhile_append_dropWhile]

theorem chars_eq (source : String) (index : Nat) (line : TextLine) (width : Nat) :
    (ofTextLine source index line).chars width =
      List.replicate (line.level * width) ' ' ++ line.text := by
  rw [chars, List.replicate_add, List.append_assoc, own_append_text]
  rfl

/-- The spaces of a line are those of its level and its own. -/
theorem chars_ofTextLine (indentWidth : UInt64) (line : TextLine) (source : String)
    (index : Nat) :
    (ofTextLine source index line).chars indentWidth.toNat = line.chars indentWidth :=
  chars_eq source index line indentWidth.toNat

/-- A line is empty if it is without any indentation, and has none. -/
theorem chars_eq_nil_iff {line : LayoutLine} {width : Nat} :
    line.chars width = [] ↔ line.chars 0 = [] ∧ (line.level = 0 ∨ width = 0) := by
  simp only [chars, List.append_eq_nil_iff, List.replicate_eq_nil_iff, Nat.add_eq_zero_iff,
    Nat.mul_eq_zero, Nat.mul_zero]
  tauto

/-- Two widths make the same lines empty, but for those that have nothing but the indentation of
    their level. -/
theorem chars_eq_nil_congr {line : LayoutLine} {width other : Nat}
    (either : line.chars 0 ≠ [] ∨ line.level = 0 ∨ (width ≠ 0 ∧ other ≠ 0)) :
    line.chars width = [] ↔ line.chars other = [] := by
  rw [@chars_eq_nil_iff line width, @chars_eq_nil_iff line other]
  tauto

end LayoutLine

namespace Step

/-- The layout of a step at a level. -/
def layoutLines (level : Nat) : Step → List LayoutLine
  | line text => ((line text).lines level).mapIdx (LayoutLine.ofTextLine text)
  | indent => []
  | dedent => []

/-- The layout of steps from a level on. -/
def layoutFrom : (level : Nat) → List Step → List LayoutLine
  | _, [] => []
  | level, step :: rest => step.layoutLines level ++ layoutFrom (step.levelAfter level) rest

theorem layoutFrom_append (level : Nat) (first second : List Step) :
    layoutFrom level (first ++ second) =
      layoutFrom level first ++ layoutFrom (levelAfterAll level first) second := by
  induction first generalizing level with
  | nil => rfl
  | cons step rest ih => simp [layoutFrom, ih]

/-- The lines of a step are those of its layout. -/
theorem map_chars_layoutLines (indentWidth : UInt64) (level : Nat) (step : Step) :
    (step.layoutLines level).map (LayoutLine.chars indentWidth.toNat) =
      (step.lines level).map (TextLine.chars indentWidth) := by
  cases step with
  | line text =>
    refine List.ext_getElem (by simp [layoutLines]) fun index _ _ => ?_
    simp only [layoutLines, List.getElem_map, List.getElem_mapIdx]
    exact LayoutLine.chars_ofTextLine indentWidth _ text index
  | indent => rfl
  | dedent => rfl

theorem map_chars_layoutFrom (indentWidth : UInt64) (level : Nat) (steps : List Step) :
    (layoutFrom level steps).map (LayoutLine.chars indentWidth.toNat) =
      (linesFrom level steps).map (TextLine.chars indentWidth) := by
  induction steps generalizing level with
  | nil => rfl
  | cons step rest ih =>
    rw [layoutFrom, linesFrom, List.map_append, List.map_append, ih, map_chars_layoutLines]

/-- If the spaces of all lines of a layout can be counted, then so can those of its steps. -/
theorem fitsAll_of_layoutFrom {indentWidth : UInt64} {level : Nat} {steps : List Step}
    (fits : ∀ line ∈ layoutFrom level steps, line.level * indentWidth.toNat < UInt64.size) :
    fitsAll indentWidth level steps = true := by
  induction steps generalizing level with
  | nil => rfl
  | cons step rest ih =>
    rw [layoutFrom, List.forall_mem_append] at fits
    have here : step.fits indentWidth level = true := by
      cases step with
      | line text =>
        refine fits_line_iff.mpr fun shown => ?_
        have filled : text.isEmpty = false := by simpa using shown
        rcases split : textLines text.toList with _ | ⟨first, others⟩
        · exact absurd split (textLines_ne_nil text.toList)
        · exact fits.1 (LayoutLine.ofTextLine text 0 ⟨level, first⟩)
            (by simp [layoutLines, lines, split, filled])
      | indent => rfl
      | dedent => rfl
    rw [fitsAll, here, ih fits.2]
    rfl

/-- Only the first line of a text that is not empty is indented, by the level of its step. -/
theorem mem_layoutLines {level : Nat} {step : Step} {line : LayoutLine}
    (member : line ∈ step.layoutLines level) (indented : line.level ≠ 0) :
    ∃ text first others, step = .line text ∧ text.isEmpty = false ∧
      textLines text.toList = first :: others ∧
      line = LayoutLine.ofTextLine text 0 ⟨level, first⟩ := by
  cases step with
  | line text =>
    rcases split : textLines text.toList with _ | ⟨first, others⟩
    · exact absurd split (textLines_ne_nil text.toList)
    · rw [layoutLines, lines, split, List.map_cons, List.modifyHead_cons, List.mapIdx_cons,
        List.mem_cons] at member
      rcases member with rfl | later
      · cases empty : text.isEmpty with
        | true => simp [LayoutLine.ofTextLine, empty] at indented
        | false => exact ⟨text, first, others, rfl, empty, split, by simp⟩
      · obtain ⟨index, inside, rfl⟩ := List.mem_mapIdx.mp later
        simp [LayoutLine.ofTextLine] at indented
  | indent => cases member
  | dedent => cases member

/-- A line of a layout is one of a step somewhere, at the level that the steps before it lead to. -/
theorem mem_layoutFrom_iff {level : Nat} {steps : List Step} {line : LayoutLine} :
    line ∈ layoutFrom level steps ↔ ∃ before step after, steps = before ++ step :: after ∧
      line ∈ step.layoutLines (levelAfterAll level before) := by
  constructor
  · intro member
    induction steps generalizing level with
    | nil => cases member
    | cons step rest ih =>
      rw [layoutFrom, List.mem_append] at member
      rcases member with here | later
      · exact ⟨[], step, rest, rfl, here⟩
      · obtain ⟨before, found, after, rfl, inside⟩ := ih later
        exact ⟨step :: before, found, after, rfl, inside⟩
  · rintro ⟨before, step, after, rfl, member⟩
    rw [layoutFrom_append, layoutFrom]
    exact List.mem_append_right _ (List.mem_append_left _ member)

theorem mem_layoutFrom_of_getElem? {level index : Nat} {steps : List Step} {step : Step}
    {line : LayoutLine} (found : steps[index]? = some step)
    (member : line ∈ step.layoutLines (levelAfterAll level (steps.take index))) :
    line ∈ layoutFrom level steps := by
  obtain ⟨inside, rfl⟩ := List.getElem?_eq_some_iff.mp found
  refine mem_layoutFrom_iff.mpr ⟨_, _, steps.drop (index + 1), ?_, member⟩
  rw [← List.drop_eq_getElem_cons inside, List.take_append_drop]

theorem head?_text_of_mem_layoutFrom {level : Nat} {steps : List Step} {line : LayoutLine}
    (member : line ∈ layoutFrom level steps) : line.text.head? ≠ some ' ' := by
  obtain ⟨before, step, after, -, inside⟩ := mem_layoutFrom_iff.mp member
  cases step with
  | line text =>
    obtain ⟨index, _, rfl⟩ := List.mem_mapIdx.mp inside
    exact LayoutLine.head?_text text index _
  | indent => cases inside
  | dedent => cases inside

/-- Levels grow by one with a step at most. -/
theorem level_le_of_mem_layoutFrom {level : Nat} {steps : List Step} {line : LayoutLine}
    (member : line ∈ layoutFrom level steps) : line.level ≤ level + steps.length := by
  obtain ⟨before, step, after, rfl, inside⟩ := mem_layoutFrom_iff.mp member
  by_cases indented : line.level = 0
  · omega
  · obtain ⟨text, first, others, -, -, -, rfl⟩ := mem_layoutLines inside indented
    calc levelAfterAll level before
        ≤ level + before.length := levelAfterAll_le level before
      _ ≤ level + (before ++ step :: after).length := by
        rw [List.length_append]
        omega

/-- A text whose first line is empty is empty, or begins with a line feed. -/
theorem head?_of_textLines {text : List Char} {others : List (List Char)}
    (split : textLines text = [] :: others) (filled : text ≠ []) : text.head? = some '\n' := by
  cases text with
  | nil => exact absurd rfl filled
  | cons c rest =>
    by_cases feed : c = '\n'
    · rw [feed]
      rfl
    · have pieces : textLines ([c] ++ rest) = (textLines rest).modifyHead ([c] ++ ·) :=
        textLines_append (by simpa [eq_comm] using feed) rest
      rw [List.singleton_append, split] at pieces
      rcases behind : textLines rest with _ | ⟨first, more⟩
      · exact absurd behind (textLines_ne_nil rest)
      · rw [behind] at pieces
        cases pieces

/-- A line that has nothing but the indentation of its level stands in front of the line feed
    with which its text begins. -/
theorem isFeed_of_empty {level : Nat} {steps : List Step} {line : LayoutLine}
    (member : line ∈ layoutFrom level steps) (empty : line.chars 0 = [])
    (indented : line.level ≠ 0) : line.IsFeed := by
  obtain ⟨before, step, after, -, inside⟩ := mem_layoutFrom_iff.mp member
  obtain ⟨text, first, others, -, filled, split, rfl⟩ := mem_layoutLines inside indented
  rw [LayoutLine.chars_eq, Nat.mul_zero, List.replicate_zero, List.nil_append] at empty
  obtain rfl : first = [] := empty
  refine ⟨rfl, head?_of_textLines split fun none => ?_⟩
  have same : text = "" := String.toList_eq_nil_iff.mp none
  rw [same] at filled
  cases filled

end Step

/-- Images of one list that are related, whatever follows them, are related for each element. -/
theorem rel_of_forall₂_map_append {α β : Type} {related : β → β → Prop} {image other : α → β}
    {list : List α} {rest more : List β}
    (all : List.Forall₂ related (list.map image ++ rest) (list.map other ++ more)) :
    ∀ x ∈ list, related (image x) (other x) := by
  induction list with
  | nil => simp
  | cons first others ih =>
    rw [List.map_cons, List.map_cons, List.cons_append, List.cons_append, List.forall₂_cons] at all
    exact List.forall_mem_cons.mpr ⟨all.1, ih all.2⟩

namespace Emission

/-! ## Drafts -/

/-- What the files of a package are laid out from: its methods, each with its parts. -/
def drafts (config : Config) (package : Package) : Except EmitError (List (Method × Parts)) :=
  package.methods.mapM fun method => (parts config method).map fun parts => (method, parts)

/-- The steps of a file. -/
def draftSteps (config : Config) (package : Package) (draft : Method × Parts) : List Step :=
  fileSteps config package draft.1 draft.2

/-- The file that is laid out from a draft. -/
def draftFile (config : Config) (package : Package) (draft : Method × Parts) : File where
  path := filePath package draft.1
  contents := Document.render config.indentWidth (draftSteps config package draft)

/-- The layout of the file of a draft. -/
def draftLayout (config : Config) (package : Package) (draft : Method × Parts) :
    List LayoutLine :=
  Step.layoutFrom 0 (draftSteps config package draft)

/-- The files of a package are those of its drafts. -/
theorem renderPackage_eq_map (config : Config) (package : Package) :
    renderPackage config package =
      (drafts config package).map fun all => all.map (draftFile config package) := by
  rw [renderPackage, drafts]
  induction package.methods with
  | nil => rfl
  | cons method rest ih =>
    rw [renderMethods, ih, List.mapM_cons, renderMethod]
    generalize (rest.mapM fun method =>
      (parts config method).map fun parts => (method, parts)) = others
    cases parts config method with
    | error reason => rfl
    | ok made => cases others <;> rfl

/-- What is emitted for a package does not depend on the width of a level. -/
theorem drafts_congr {config other : Config}
    (same : { config with indentWidth := other.indentWidth } = other) (package : Package) :
    drafts other package = drafts config package := by
  rw [← same]
  rfl

theorem draftSteps_congr {config other : Config}
    (same : { config with indentWidth := other.indentWidth } = other) (package : Package)
    (draft : Method × Parts) :
    draftSteps other package draft = draftSteps config package draft := by
  rw [← same]
  rfl

/-! ## Two widths -/

/-- The spaces of every level in the files of a package can be counted in words of 64 bits. -/
def Fits (config : Config) (package : Package) : Prop :=
  ∀ all, drafts config package = .ok all → ∀ draft ∈ all,
    ∀ line ∈ draftLayout config package draft,
      line.level * config.indentWidth.toNat < UInt64.size

/-- Levels are bounded by the number of steps. -/
theorem fits_of_length {config : Config} {package : Package}
    (short : ∀ all, drafts config package = .ok all → ∀ draft ∈ all,
      (draftSteps config package draft).length * config.indentWidth.toNat < UInt64.size) :
    Fits config package := by
  intro all drafted draft member line inLayout
  have bounded := Step.level_le_of_mem_layoutFrom inLayout
  rw [Nat.zero_add] at bounded
  exact Nat.lt_of_le_of_lt (Nat.mul_le_mul_right _ bounded) (short all drafted draft member)

/-- The lines of a file are those of its layout, and an empty one at the end. -/
theorem textLines_draftFile (config : Config) (package : Package) (draft : Method × Parts) :
    textLines (draftFile config package draft).contents.toList =
      (draftLayout config package draft).map (LayoutLine.chars config.indentWidth.toNat) ++
        [[]] := by
  rw [draftFile, Document.textLines_render, draftLayout, Step.map_chars_layoutFrom]

/-- A run that writes the file does not stop. -/
def IsWritten (config : Config) (package : Package) (draft : Method × Parts) : Prop :=
  ∃ ended, Document.run { indentWidth := config.indentWidth } (draftSteps config package draft) =
      some ended ∧ ended.text = (draftFile config package draft).contents

theorem isWritten_of_fits {config : Config} {package : Package} {draft : Method × Parts}
    (fits : ∀ line ∈ draftLayout config package draft,
      line.level * config.indentWidth.toNat < UInt64.size) : IsWritten config package draft :=
  ⟨_, Document.run_eq_some_iff.mpr ⟨Step.fitsAll_of_layoutFrom fits, rfl⟩, rfl⟩

/-- Two files hold the lines of one layout in two widths. Only the line in front of a line feed
    with which a text begins is empty in one of them and not in the other, and only if one of
    the widths is zero. -/
structure SameLayout (layout : List LayoutLine) (width otherWidth : Nat) (file other : File) :
    Prop where
  path : file.path = other.path
  lines : textLines file.contents.toList = layout.map (LayoutLine.chars width) ++ [[]]
  otherLines : textLines other.contents.toList = layout.map (LayoutLine.chars otherWidth) ++ [[]]
  text : ∀ line ∈ layout, line.text.head? ≠ some ' '
  empty : ∀ line ∈ layout, (line.chars width = [] ↔ line.chars otherWidth = []) ∨
    (width = 0 ∨ otherWidth = 0) ∧ line.IsFeed

theorem sameLayout_draftFile {config other : Config}
    (same : { config with indentWidth := other.indentWidth } = other) (package : Package)
    (draft : Method × Parts) :
    SameLayout (draftLayout config package draft) config.indentWidth.toNat
      other.indentWidth.toNat (draftFile config package draft) (draftFile other package draft) where
  path := rfl
  lines := textLines_draftFile config package draft
  otherLines := by
    rw [textLines_draftFile, draftLayout, draftSteps_congr same]
    rfl
  text line member := Step.head?_text_of_mem_layoutFrom member
  empty := by
    intro line member
    by_cases bare : line.chars 0 = [] ∧ line.level ≠ 0
    · by_cases zero : config.indentWidth.toNat = 0 ∨ other.indentWidth.toNat = 0
      · exact .inr ⟨zero, Step.isFeed_of_empty member bare.1 bare.2⟩
      · exact .inl (LayoutLine.chars_eq_nil_congr (.inr (.inr (not_or.mp zero))))
    · exact .inl (LayoutLine.chars_eq_nil_congr (by tauto))

/-- With two widths a package fails in the same way, or it has files of the same layout, and no
    run stops that writes one of them. -/
theorem renderPackage_layout {config other : Config}
    (same : { config with indentWidth := other.indentWidth } = other) {package : Package}
    (fits : Fits config package) (otherFits : Fits other package) :
    (∃ error, renderPackage config package = .error error ∧
        renderPackage other package = .error error) ∨
      ∃ all, drafts config package = .ok all ∧
        renderPackage config package = .ok (all.map (draftFile config package)) ∧
        renderPackage other package = .ok (all.map (draftFile other package)) ∧
        ∀ draft ∈ all, IsWritten config package draft ∧ IsWritten other package draft ∧
          SameLayout (draftLayout config package draft) config.indentWidth.toNat
            other.indentWidth.toNat (draftFile config package draft)
            (draftFile other package draft) := by
  have congr := drafts_congr same package
  rw [renderPackage_eq_map, renderPackage_eq_map, congr]
  cases drafted : drafts config package with
  | error reason => exact .inl ⟨reason, rfl, rfl⟩
  | ok all =>
    refine .inr ⟨all, rfl, rfl, rfl, fun draft member => ⟨?_, ?_, ?_⟩⟩
    · exact isWritten_of_fits (fits all drafted draft member)
    · exact isWritten_of_fits (otherFits all (congr.trans drafted) draft member)
    · exact sameLayout_draftFile same package draft

/-- A package with an input whose fragment begins with a line feed. -/
def feedPackage : Package where
  ident := ⟨"p"⟩
  version := ⟨1, 0, 0⟩
  methods := [{
    ident := ⟨"m"⟩
    options := [
      { ident := ⟨"a"⟩
        items := [.node (.input { ident := ⟨"i"⟩, initIn := ["\nrun();"] } false)] }] }]

/-- The conventions without any indentation. -/
def flush : Config :=
  { Config.standard with indentWidth := 0 }

/-- The fragment of such a package stands two levels deep in its only file. -/
theorem feedPackage_draft :
    ∃ draft, drafts .standard feedPackage = .ok [draft] ∧
      (draftSteps .standard feedPackage draft).length = 121 ∧
      (draftSteps .standard feedPackage draft)[113]? = some (.line "\nrun();") ∧
      Step.levelAfterAll 0 ((draftSteps .standard feedPackage draft).take 113) = 2 := by
  refine ⟨_, rfl, ?_, ?_, ?_⟩
  · decide +kernel
  · decide +kernel
  · decide +kernel

theorem fits_feedPackage {config : Config} (narrow : config.indentWidth.toNat ≤ 4)
    (same : { Config.standard with indentWidth := config.indentWidth } = config) :
    Fits config feedPackage := by
  obtain ⟨only, drafted, length, -⟩ := feedPackage_draft
  refine fits_of_length fun all drafted' draft member => ?_
  rw [drafts_congr same, drafted] at drafted'
  cases drafted'
  rw [List.mem_singleton.mp member, draftSteps_congr same, length]
  exact Nat.lt_of_le_of_lt (Nat.mul_le_mul_left _ narrow) (by decide)

/-- The file of such a package has the same layout with any indentation and without. -/
theorem feedPackage_layout :
    { Config.standard with indentWidth := flush.indentWidth } = flush ∧
      Fits .standard feedPackage ∧ Fits flush feedPackage ∧
      ((∃ error, renderPackage .standard feedPackage = .error error ∧
          renderPackage flush feedPackage = .error error) ∨
        ∃ all, drafts .standard feedPackage = .ok all ∧
          renderPackage .standard feedPackage = .ok (all.map (draftFile .standard feedPackage)) ∧
          renderPackage flush feedPackage = .ok (all.map (draftFile flush feedPackage)) ∧
          ∀ draft ∈ all, IsWritten .standard feedPackage draft ∧
            IsWritten flush feedPackage draft ∧
            SameLayout (draftLayout .standard feedPackage draft)
              Config.standard.indentWidth.toNat flush.indentWidth.toNat
              (draftFile .standard feedPackage draft) (draftFile flush feedPackage draft)) :=
  have fits : Fits .standard feedPackage := fits_feedPackage (by decide) rfl
  have flushFits : Fits flush feedPackage := fits_feedPackage (by decide) rfl
  ⟨rfl, fits, flushFits, renderPackage_layout rfl fits flushFits⟩

/-- A line that is empty with one width may have spaces with another: the line in front of the
    line feed with which a fragment begins is indented like any other. -/
theorem feed_line_indented :
    ¬ ∀ (config other : Config) (package : Package) (files others : List File),
      { config with indentWidth := other.indentWidth } = other →
        Fits config package → Fits other package →
          renderPackage config package = .ok files → renderPackage other package = .ok others →
            List.Forall₂ (fun file otherFile =>
              List.Forall₂ (fun line otherLine => line = [] ↔ otherLine = [])
                (textLines file.contents.toList) (textLines otherFile.contents.toList))
              files others := by
  intro sameEmpty
  obtain ⟨draft, drafted, -, fragment, level⟩ := feedPackage_draft
  have fits : Fits .standard feedPackage := fits_feedPackage (by decide) rfl
  have flushFits : Fits flush feedPackage := fits_feedPackage (by decide) rfl
  have rendered : renderPackage .standard feedPackage =
      .ok [draftFile .standard feedPackage draft] := by
    rw [renderPackage_eq_map, drafted]
    rfl
  have flushDrafted : drafts flush feedPackage = .ok [draft] := drafted
  have flushRendered : renderPackage flush feedPackage =
      .ok [draftFile flush feedPackage draft] := by
    rw [renderPackage_eq_map, flushDrafted]
    rfl
  have files := sameEmpty .standard flush feedPackage _ _ rfl fits flushFits rendered flushRendered
  rw [List.forall₂_cons] at files
  have layout : SameLayout _ _ _ _ (draftFile flush feedPackage draft) :=
    sameLayout_draftFile rfl feedPackage draft
  have lines := files.1
  rw [layout.lines, layout.otherLines] at lines
  -- The line in front of the line feed, which has no characters of its own.
  let line : LayoutLine := ⟨"\nrun();", 0, 2, 0, []⟩
  have inLayout : line ∈ draftLayout .standard feedPackage draft :=
    Step.mem_layoutFrom_of_getElem? fragment (by rw [level]; decide)
  have empty := rel_of_forall₂_map_append lines line inLayout
  exact absurd empty (by decide)

end Emission
end OperatorGen
