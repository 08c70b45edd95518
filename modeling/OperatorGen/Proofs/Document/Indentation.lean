import Mathlib
import OperatorGen.Proofs.Document.Scopes

/-!
# Indentation

In front of a line that is not empty stand as many spaces as the product of its level and the
width of a level. They are counted in a word of 64 bits, and the program stops at the first line
where this product does not fit in one. The width may be any word and levels have no bound, so
that with every width but zero some product does not fit. Therefore a script comes to its end
exactly if the products of all its lines fit, and all scripts with lines down to a depth do
exactly if the product of depth and width fits (`runAll_indentation`). There is always memory
enough for a text.
-/
namespace OperatorGen

/-! ## Lines of a run -/

/-- A line among steps that is not empty: the steps before it, its text, and those behind it. -/
structure ShownLine (steps : List Step) where
  before : List Step
  text : String
  after : List Step
  split : steps = before ++ .line text :: after
  shown : text ≠ ""

namespace ShownLine

variable {steps : List Step}

/-- The level of the line in a run. -/
def level (line : ShownLine steps) (start : Document) : Nat :=
  Step.levelAfterAll start.level line.before

/-- A run comes to the line, and adds it with so many spaces in front of it. -/
def Indented (line : ShownLine steps) (start : Document) (count : Nat) : Prop :=
  ∃ entry added, start.run line.before = some entry ∧
    entry.step (.line line.text) = some added ∧
    added.text.toList =
      entry.text.toList ++ List.replicate count ' ' ++ line.text.toList ++ ['\n']

/-- The steps up to the line and with it. -/
def through (line : ShownLine steps) : List Step :=
  line.before ++ [.line line.text]

theorem steps_eq (line : ShownLine steps) : steps = line.through ++ line.after := by
  conv_lhs => rw [line.split]
  simp [through]

/-- A line among the steps up to another one is not behind it. -/
theorem exists_earlier (line : ShownLine steps) (inner : ShownLine line.through) :
    ∃ earlier : ShownLine steps,
      earlier.before = inner.before ∧ earlier.before <+: line.before := by
  have whole : steps = inner.before ++ .line inner.text :: (inner.after ++ line.after) := by
    conv_lhs => rw [line.steps_eq, inner.split]
    simp
  refine ⟨⟨inner.before, inner.text, inner.after ++ line.after, whole, inner.shown⟩, rfl, ?_⟩
  have first : inner.before <+: line.through := ⟨_, inner.split.symm⟩
  have second : line.before <+: line.through := List.prefix_append _ _
  refine List.prefix_of_prefix_length_le first second ?_
  have lengths : line.through.length = inner.before.length + (inner.after.length + 1) := by
    conv_lhs => rw [inner.split]
    simp
  have last : line.through.length = line.before.length + 1 := by simp [through]
  change inner.before.length ≤ line.before.length
  omega

/-- A line that is not behind another one is among the steps up to that. -/
theorem exists_inner (line : ShownLine steps) {earlier : ShownLine steps}
    (inside : earlier.before <+: line.before) :
    ∃ inner : ShownLine line.through, inner.before = earlier.before := by
  have first : earlier.through <+: steps := ⟨_, earlier.steps_eq.symm⟩
  have second : line.through <+: steps := ⟨_, line.steps_eq.symm⟩
  have shorter : earlier.through.length ≤ line.through.length := by
    simpa [through] using inside.length_le
  obtain ⟨others, split⟩ := List.prefix_of_prefix_length_le first second shorter
  refine ⟨⟨earlier.before, earlier.text, others, ?_, earlier.shown⟩, rfl⟩
  rw [← split, through, List.append_assoc]
  rfl

end ShownLine

/-- The spaces of all steps can be counted exactly if those of every line can. -/
theorem Step.fitsAll_iff {indentWidth : UInt64} {level : Nat} {steps : List Step} :
    fitsAll indentWidth level steps = true ↔
      ∀ line : ShownLine steps,
        levelAfterAll level line.before * indentWidth.toNat < UInt64.size := by
  constructor
  · rintro fits ⟨before, text, after, rfl, shown⟩
    rw [fitsAll_append, fitsAll, Bool.and_eq_true, Bool.and_eq_true] at fits
    exact fits_line_iff.mp fits.2.1 shown
  · intro lines
    induction steps generalizing level with
    | nil => rfl
    | cons step rest ih =>
      have here : step.fits indentWidth level = true := by
        cases step with
        | line text => exact fits_line_iff.mpr fun shown => lines ⟨[], text, rest, rfl, shown⟩
        | indent => rfl
        | dedent => rfl
      have others : fitsAll indentWidth (step.levelAfter level) rest = true :=
        ih fun line => lines ⟨step :: line.before, line.text, line.after,
          congrArg (step :: ·) line.split, line.shown⟩
      rw [fitsAll, here, others]
      rfl

/-! ## Levels that steps reach -/

namespace Step

theorem levelAfterAll_replicate_indent (level count : Nat) :
    levelAfterAll level (List.replicate count indent) = level + count := by
  induction count generalizing level with
  | zero => rfl
  | succ count ih =>
    rw [List.replicate_succ, levelAfterAll_cons, ih, levelAfter]
    omega

theorem levelAfterAll_replicate_dedent (level count : Nat) :
    levelAfterAll level (List.replicate count dedent) = level - count := by
  induction count generalizing level with
  | zero => rfl
  | succ count ih =>
    rw [List.replicate_succ, levelAfterAll_cons, ih, levelAfter]
    omega

/-- Steps that lead from one level to another. -/
def between (start goal : Nat) : List Step :=
  List.replicate start dedent ++ List.replicate goal indent

theorem levelAfterAll_between (start goal : Nat) :
    levelAfterAll start (between start goal) = goal := by
  rw [between, levelAfterAll_append, levelAfterAll_replicate_dedent,
    levelAfterAll_replicate_indent]
  omega

/-- The line behind steps that only change the level is the only one. -/
theorem before_eq_between {start goal : Nat} {text : String}
    (only : ShownLine (between start goal ++ [line text])) :
    only.before = between start goal := by
  obtain ⟨before, shownText, after, split, -⟩ := only
  rcases List.eq_nil_or_concat after with rfl | ⟨others, last, rfl⟩
  · exact (List.append_inj' split rfl).1.symm
  · rw [List.concat_eq_append, ← List.cons_append, ← List.append_assoc] at split
    have inside : line shownText ∈ between start goal := by
      rw [(List.append_inj' split rfl).1]
      simp
    simp [between] at inside

end Step

namespace ShownLine

variable {steps : List Step} {start : Document}

/-- A line that is added is indented by its level. -/
theorem indented_iff_run {line : ShownLine steps} {count : Nat} :
    line.Indented start count ↔
      count = line.level start * start.indentWidth.toNat ∧
        Step.fitsAll start.indentWidth start.level line.through = true := by
  have added : (start.addAll line.through).text.toList =
      (start.addAll line.before).text.toList ++
        List.replicate (line.level start * start.indentWidth.toNat) ' ' ++ line.text.toList ++
          ['\n'] := by
    have filled : line.text.isEmpty = false := by simpa using line.shown
    rw [through, Document.addAll_append, Document.addAll_cons, Document.add,
      Document.addAll_eq start]
    simp [Document.addAll, Step.toList_text_line, filled, level, Step.spaces]
  constructor
  · rintro ⟨entry, after, ran, stepped, text⟩
    have whole : start.run line.through = some after := by
      rw [through, Document.run_append, ran, ← stepped, Document.step_eq_run]
      rfl
    obtain ⟨fits, rfl⟩ := Document.run_eq_some_iff.mp whole
    obtain ⟨-, rfl⟩ := Document.run_eq_some_iff.mp ran
    refine ⟨?_, fits⟩
    rw [added] at text
    simpa [eq_comm] using congrArg List.length text
  · rintro ⟨rfl, fits⟩
    have ran : start.run line.through = some (start.addAll line.through) :=
      Document.run_eq_some_iff.mpr ⟨fits, rfl⟩
    rw [through, Document.run_append, Option.bind_eq_bind, Option.bind_eq_some_iff] at ran
    obtain ⟨entry, reached, stepped⟩ := ran
    rw [← Document.step_eq_run] at stepped
    refine ⟨entry, _, reached, stepped, ?_⟩
    rw [(Document.run_eq_some_iff.mp reached).2]
    exact added

/-- A line is added with the spaces of its level, if those of all lines up to it can be
    counted. -/
theorem indented_iff {line : ShownLine steps} {count : Nat} :
    line.Indented start count ↔
      count = line.level start * start.indentWidth.toNat ∧
        ∀ earlier : ShownLine steps, earlier.before <+: line.before →
          earlier.level start * start.indentWidth.toNat < UInt64.size := by
  rw [indented_iff_run, Step.fitsAll_iff]
  refine and_congr_right fun _ => ⟨fun all earlier inside => ?_, fun all inner => ?_⟩
  · obtain ⟨inner, same⟩ := line.exists_inner inside
    rw [level, ← same]
    exact all inner
  · obtain ⟨earlier, same, inside⟩ := line.exists_earlier inner
    rw [← same]
    exact all earlier inside

end ShownLine

/-! ## Scripts -/

namespace Script

variable {ε : Type}

theorem emittedAll_map_step (steps : List Step) :
    emittedAll (steps.map (step : Step → Script ε)) = (steps, .ok ()) := by
  induction steps with
  | nil => rfl
  | cons first rest ih => simp [emittedAll, emitted, ih]

/-- A run stops exactly if the spaces of one of its lines cannot be counted. -/
theorem runAll_eq_none_iff {start : Document} {scripts : List (Script ε)} :
    runAll start scripts = none ↔
      ∃ line : ShownLine (emittedAll scripts).1,
        UInt64.size ≤ line.level start * start.indentWidth.toNat := by
  rw [runAll_eq, Option.map_eq_none_iff, Document.run_eq_none_iff, ← Bool.not_eq_true,
    Step.fitsAll_iff]
  push Not
  rfl

/-- The line to which a run has come, as the text has it at last. -/
theorem text_of_runAll {start ended : Document} {scripts : List (Script ε)}
    {report : Except ε Unit} (ran : runAll start scripts = some (ended, report))
    (line : ShownLine (emittedAll scripts).1) :
    ∃ entry, start.run line.before = some entry ∧
      entry.text.toList ++
          List.replicate (line.level start * start.indentWidth.toNat) ' ' ++
          line.text.toList ++ ['\n'] <+: ended.text.toList := by
  rw [runAll_eq, Option.map_eq_some_iff] at ran
  obtain ⟨_, toEnd, same⟩ := ran
  obtain ⟨rfl, -⟩ := Prod.mk.inj same
  have inside : line.through <+: (emittedAll scripts).1 := ⟨_, line.steps_eq.symm⟩
  obtain ⟨added, toLine, stays⟩ := exists_run_prefix toEnd inside
  have fits := (Document.run_eq_some_iff.mp toLine).1
  obtain ⟨entry, after, reached, stepped, text⟩ := ShownLine.indented_iff_run.mpr ⟨rfl, fits⟩
  have same : some after = some added := by
    rw [← toLine, ShownLine.through, Document.run_append, reached, ← stepped,
      Document.step_eq_run]
    rfl
  refine ⟨entry, reached, ?_⟩
  rw [← text, Option.some.inj same]
  exact stays

/-- In front of every line that is not empty stand as many spaces as the product of its level
    and the width, if a run comes so far: it stops at the first line where this product does not
    fit in a word. So a run comes to its end exactly if the products of all its lines fit, and
    then it has all of them in its text. No line is indented less than one at a shallower level.
    Scripts whose lines are no deeper than some depth come to their ends exactly if the product
    of depth and width fits. -/
theorem runAll_indentation (start : Document) :
    let width := start.indentWidth.toNat
    (∀ scripts : List (Script ε),
      let Line := ShownLine (emittedAll scripts).1
      (∀ (line : Line) (count : Nat), line.Indented start count ↔
        count = line.level start * width ∧
          ∀ earlier : Line, earlier.before <+: line.before →
            earlier.level start * width < UInt64.size) ∧
      (runAll start scripts = none ↔
        ∃ line : Line, UInt64.size ≤ line.level start * width) ∧
      (∀ ended report, runAll start scripts = some (ended, report) → ∀ line : Line,
        ∃ entry, start.run line.before = some entry ∧
          entry.text.toList ++ List.replicate (line.level start * width) ' ' ++
            line.text.toList ++ ['\n'] <+: ended.text.toList) ∧
      ∀ (upper lower : Line) (above below : Nat), upper.level start ≤ lower.level start →
        upper.Indented start above → lower.Indented start below → above ≤ below) ∧
    ∀ depth, (∀ scripts : List (Script ε),
        (∀ line : ShownLine (emittedAll scripts).1, line.level start ≤ depth) →
          runAll start scripts ≠ none) ↔
      depth * width < UInt64.size := by
  intro width
  refine ⟨fun scripts => ⟨fun line count => ShownLine.indented_iff, runAll_eq_none_iff,
    fun ended report ran => text_of_runAll ran, fun upper lower above below ordered => ?_⟩,
    fun depth => ⟨?_, ?_⟩⟩
  · intro indented indented'
    rw [(ShownLine.indented_iff.mp indented).1, (ShownLine.indented_iff.mp indented').1]
    exact Nat.mul_le_mul_right _ ordered
  · contrapose!
    intro wide
    let steps := Step.between start.level depth ++ [.line "x"]
    have level (only : ShownLine steps) : only.level start = depth := by
      rw [ShownLine.level, Step.before_eq_between only, Step.levelAfterAll_between]
    refine ⟨steps.map step, ?_, ?_⟩
    · rw [emittedAll_map_step]
      exact fun only => (level only).le
    · rw [runAll_eq_none_iff, emittedAll_map_step]
      let deep : ShownLine steps := ⟨Step.between start.level depth, "x", [], rfl, by decide⟩
      exact ⟨deep, by rwa [level deep]⟩
  · intro fits scripts shallow stopped
    obtain ⟨line, wide⟩ := runAll_eq_none_iff.mp stopped
    have within : line.level start * width ≤ depth * width :=
      Nat.mul_le_mul_right width (shallow line)
    exact absurd (Nat.le_trans wide within) (Nat.not_le.mpr fits)

/-- A line two levels deep, in a scope that reports an error, has eight spaces if the width is
    four. If the width is half of all words, the run stops there. -/
theorem runAll_indentation_wide :
    let narrow : Document := { indentWidth := 4 }
    let wide : Document := { indentWidth := 9223372036854775808 }
    let inner : List (Script String) := [.step .indent, .step (.line "a"), .fail "no"]
    let scripts : List (Script String) := [.step (.line "b"), .scope inner]
    let deep : ShownLine (emittedAll scripts).1 :=
      ⟨[.line "b", .line "\x7b", .indent, .indent], "a", [.dedent, .line "\x7d"], rfl, by decide⟩
    deep.Indented narrow 8 ∧ runAll narrow scripts ≠ none ∧ runAll wide scripts = none ∧
      ∃ others : List (Script String),
        (∀ line : ShownLine (emittedAll others).1, line.level wide ≤ 2) ∧
          runAll wide others = none := by
  intro narrow wide inner scripts deep
  obtain ⟨lines, -⟩ := @runAll_indentation String narrow
  obtain ⟨wideLines, depths⟩ := @runAll_indentation String wide
  obtain ⟨indented, stops, -⟩ := lines scripts
  obtain ⟨-, wideStops, -⟩ := wideLines scripts
  have narrowFits (line : ShownLine (emittedAll scripts).1) :
      line.level narrow * narrow.indentWidth.toNat < UInt64.size := by
    have inFront : line.before.length ≤ (emittedAll scripts).1.length :=
      List.IsPrefix.length_le ⟨_, line.split.symm⟩
    have level : line.level narrow ≤ 7 :=
      Nat.le_trans (Step.levelAfterAll_le narrow.level line.before)
        (Nat.le_trans (Nat.add_le_add_left inFront _) (by decide))
    exact Nat.lt_of_le_of_lt (Nat.mul_le_mul_right _ level) (by decide)
  refine ⟨(indented deep _).mpr ⟨by decide, fun earlier _ => narrowFits earlier⟩, ?_,
    wideStops.mpr ⟨deep, by decide⟩, ?_⟩
  · intro stopped
    obtain ⟨line, beyond⟩ := stops.mp stopped
    exact absurd (narrowFits line) (Nat.not_lt.mpr beyond)
  · have stopped := (not_congr (depths 2)).mpr (by decide)
    push Not at stopped
    exact stopped

/-- With half of all words as the width, the spaces of a line at the second level cannot be
    counted: the program stops there, and does not put them in front of it. -/
theorem deep_line_stops :
    ({ indentWidth := 9223372036854775808 } : Document).run [.indent, .indent] =
        some ⟨9223372036854775808, 2, ""⟩ ∧
      ({ indentWidth := 9223372036854775808 } : Document).run [.indent, .indent, .line "x"] =
        none ∧
      ¬ ∀ (start : Document) (steps : List Step) (line : ShownLine steps),
        line.Indented start (line.level start * start.indentWidth.toNat) := by
  refine ⟨by decide, by decide, fun exact => ?_⟩
  let deep : ShownLine [.indent, .indent, .line "x"] :=
    ⟨[.indent, .indent], "x", [], rfl, by decide⟩
  obtain ⟨-, counted⟩ :=
    ShownLine.indented_iff.mp (exact { indentWidth := 9223372036854775808 } _ deep)
  exact absurd (counted deep List.prefix_rfl) (by decide)

end Script
end OperatorGen
