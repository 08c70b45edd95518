import OperatorGen.Document

/-!
# The lines of a document

A document is laid out line by line. What a step adds ends with a line feed, so the lines
of a whole text are those of its steps in order, and one empty line behind the last line
feed (`splitOn_render`). A line has a level, which says how far it is indented, and a text
behind that (`TextLine`); the width of a level changes nothing else. Line feeds inside the
text of a step end a line too, and the lines after those are not indented.
-/
namespace OperatorGen

/-- A line of a document: its level, and what stands behind its indentation. -/
structure TextLine where
  level : Nat
  text : List Char
  deriving DecidableEq, Repr

namespace TextLine

/-- The characters of a line, given the width of a level. -/
def chars (indentWidth : UInt64) (line : TextLine) : List Char :=
  List.replicate (Step.spaces indentWidth line.level) ' ' ++ line.text

end TextLine

/-- The pieces of a text between its line feeds. -/
def textLines (text : List Char) : List (List Char) :=
  text.splitOn '\n'

theorem textLines_ne_nil (text : List Char) : textLines text ≠ [] :=
  List.splitOn_ne_nil '\n' text

theorem textLines_of_not_mem {text : List Char} (whole : '\n' ∉ text) :
    textLines text = [text] :=
  List.splitOn_eq_singleton whole

theorem textLines_append_cons (first rest : List Char) :
    textLines (first ++ '\n' :: rest) = textLines first ++ textLines rest :=
  List.splitOn_append_cons_self first rest

/-- What stands in front of a text without a line feed stands in front of its first line. -/
theorem textLines_append {front : List Char} (whole : '\n' ∉ front) (text : List Char) :
    textLines (front ++ text) = (textLines text).modifyHead (front ++ ·) := by
  induction front with
  | nil =>
    rw [List.nil_append]
    exact (congrFun List.modifyHead_id (textLines text)).symm
  | cons c rest ih =>
    rw [List.mem_cons, not_or] at whole
    have apart : (c == '\n') = false := beq_false_of_ne (Ne.symm whole.1)
    have split : textLines (c :: (rest ++ text)) =
        (textLines (rest ++ text)).modifyHead (c :: ·) := by
      rw [textLines, List.splitOn_cons_eq_if_modifyHead, apart]
      rfl
    rw [List.cons_append, split, ih whole.2, List.modifyHead_modifyHead]
    rfl

/-- There is one piece more than line feeds. -/
theorem length_textLines (text : List Char) : (textLines text).length = text.count '\n' + 1 := by
  induction text with
  | nil => rfl
  | cons c rest ih =>
    by_cases feed : c = '\n'
    · subst feed
      have split : textLines ('\n' :: rest) = [[]] ++ textLines rest :=
        textLines_append_cons [] rest
      rw [split, List.length_append, ih, List.count_cons_self, List.length_singleton]
      omega
    · have split : textLines ([c] ++ rest) = (textLines rest).modifyHead ([c] ++ ·) :=
        textLines_append (by simpa [eq_comm] using feed) rest
      rw [List.singleton_append] at split
      rw [split, List.length_modifyHead, ih, List.count_cons_of_ne feed]

/-! ## Lines of steps -/

namespace Step

/-- The lines that a step adds at a level. An empty line is not indented, and neither are
    the lines behind a line feed of the text. -/
def lines (level : Nat) : Step → List TextLine
  | line text =>
    ((textLines text.toList).map (TextLine.mk 0)).modifyHead fun first =>
      { first with level := if text.isEmpty then 0 else level }
  | indent => []
  | dedent => []

/-- The lines that steps add from a level on. -/
def linesFrom : (level : Nat) → List Step → List TextLine
  | _, [] => []
  | level, step :: rest => step.lines level ++ linesFrom (step.levelAfter level) rest

/-- A text that is one line has the level of its step, unless it is empty. -/
theorem lines_of_not_mem {text : String} (whole : '\n' ∉ text.toList) (level : Nat) :
    (line text).lines level = [⟨if text.isEmpty then 0 else level, text.toList⟩] := by
  rw [lines, textLines_of_not_mem whole]
  rfl

theorem length_lines (level : Nat) (text : String) :
    ((line text).lines level).length = text.toList.count '\n' + 1 := by
  rw [lines, List.length_modifyHead, List.length_map, length_textLines]

@[simp] theorem levelAfterAll_nil (level : Nat) : levelAfterAll level [] = level := rfl

@[simp] theorem levelAfterAll_cons (level : Nat) (step : Step) (rest : List Step) :
    levelAfterAll level (step :: rest) = levelAfterAll (step.levelAfter level) rest := rfl

@[simp] theorem levelAfterAll_append (level : Nat) (first second : List Step) :
    levelAfterAll level (first ++ second) = levelAfterAll (levelAfterAll level first) second :=
  List.foldl_append

/-- A level is at most the number of steps that have led to it. -/
theorem levelAfterAll_le (level : Nat) (steps : List Step) :
    levelAfterAll level steps ≤ level + steps.length := by
  induction steps generalizing level with
  | nil => simp
  | cons step rest ih =>
    have next : step.levelAfter level ≤ level + 1 := by
      cases step <;> simp only [levelAfter] <;> omega
    have := ih (step.levelAfter level)
    rw [levelAfterAll_cons, List.length_cons]
    omega

theorem linesFrom_append (level : Nat) (first second : List Step) :
    linesFrom level (first ++ second) =
      linesFrom level first ++ linesFrom (levelAfterAll level first) second := by
  induction first generalizing level with
  | nil => rfl
  | cons step rest ih => simp [linesFrom, ih]

@[simp] theorem spaces_zero (indentWidth : UInt64) : spaces indentWidth 0 = 0 :=
  Nat.zero_mul indentWidth.toNat

/-- The spaces in front of a text are those of its level, and an empty text has none. -/
theorem toList_text_line (indentWidth : UInt64) (level : Nat) (text : String) :
    (Step.text indentWidth level (line text)).toList =
      List.replicate (spaces indentWidth (if text.isEmpty then 0 else level)) ' ' ++
        text.toList ++ ['\n'] := by
  cases empty : text.isEmpty with
  | true =>
    obtain rfl : text = "" := String.isEmpty_iff.mp empty
    simp [Step.text]
  | false => simp [Step.text, empty]

/-- A line step adds its lines, each with a line feed behind it. -/
theorem textLines_line (indentWidth : UInt64) (level : Nat) (text : String) (rest : List Char) :
    textLines ((Step.text indentWidth level (line text)).toList ++ rest) =
      ((line text).lines level).map (TextLine.chars indentWidth) ++ textLines rest := by
  have blank (count : Nat) : '\n' ∉ List.replicate count ' ' := by simp
  rw [toList_text_line, List.append_assoc, List.singleton_append, textLines_append_cons,
    textLines_append (blank _), lines]
  congr 1
  rcases split : textLines text.toList with _ | ⟨first, others⟩
  · exact absurd split (textLines_ne_nil text.toList)
  · simp [TextLine.chars, Function.comp_def]

/-- The lines of what is laid out are those of the steps, and the rest goes on behind them. -/
theorem textLines_layOut (indentWidth : UInt64) (level : Nat) (steps : List Step)
    (rest : List Char) :
    textLines ((layOut indentWidth level steps).toList ++ rest) =
      (linesFrom level steps).map (TextLine.chars indentWidth) ++ textLines rest := by
  induction steps generalizing level with
  | nil => simp [layOut, linesFrom]
  | cons step others ih =>
    rw [layOut, String.toList_append, List.append_assoc, linesFrom, List.map_append,
      List.append_assoc]
    cases step with
    | line text => rw [textLines_line, ih]
    | indent => exact ih _
    | dedent => exact ih _

theorem scope_eq (steps : List Step) :
    scope steps = [line "\x7b", indent] ++ (steps ++ [dedent, line "\x7d"]) := by
  simp [scope, nested]

/-- Whether the spaces of all steps from a level on can be counted. -/
def fitsAll (indentWidth : UInt64) : (level : Nat) → List Step → Bool
  | _, [] => true
  | level, step :: rest =>
    step.fits indentWidth level && fitsAll indentWidth (step.levelAfter level) rest

theorem fits_line_iff {indentWidth : UInt64} {level : Nat} {text : String} :
    (line text).fits indentWidth level = true ↔
      (text ≠ "" → level * indentWidth.toNat < UInt64.size) := by
  rw [fits, Bool.or_eq_true, String.isEmpty_iff, decide_eq_true_iff]
  exact Decidable.or_iff_not_imp_left

theorem fitsAll_append (indentWidth : UInt64) (level : Nat) (first second : List Step) :
    fitsAll indentWidth level (first ++ second) =
      (fitsAll indentWidth level first &&
        fitsAll indentWidth (levelAfterAll level first) second) := by
  induction first generalizing level with
  | nil => rfl
  | cons step rest ih => simp [fitsAll, ih, Bool.and_assoc]

end Step

/-! ## Documents -/

namespace Document

theorem addAll_cons (document : Document) (step : Step) (rest : List Step) :
    document.addAll (step :: rest) = (document.add step).addAll rest := rfl

theorem addAll_append (document : Document) (first second : List Step) :
    document.addAll (first ++ second) = (document.addAll first).addAll second :=
  List.foldl_append

/-- A document goes on at its level, and adds what the steps are laid out as. -/
theorem addAll_eq (document : Document) (steps : List Step) :
    document.addAll steps =
      { indentWidth := document.indentWidth
        level := Step.levelAfterAll document.level steps
        text := document.text ++ Step.layOut document.indentWidth document.level steps } := by
  induction steps generalizing document with
  | nil => simp [addAll, Step.layOut]
  | cons step rest ih =>
    rw [addAll_cons, ih]
    simp [Document.add, Step.layOut, String.append_assoc]

/-- What has been written stays. -/
theorem text_prefix_addAll (document : Document) (steps : List Step) :
    document.text.toList <+: (document.addAll steps).text.toList := by
  rw [addAll_eq, String.toList_append]
  exact List.prefix_append _ _

theorem run_append (document : Document) (first second : List Step) :
    document.run (first ++ second) = document.run first >>= fun between => between.run second :=
  List.foldlM_append

/-- A run adds all its steps, and stops exactly if the spaces of one cannot be counted. -/
theorem run_eq (document : Document) (steps : List Step) :
    document.run steps =
      if Step.fitsAll document.indentWidth document.level steps then some (document.addAll steps)
      else none := by
  induction steps generalizing document with
  | nil => rfl
  | cons step rest ih =>
    rw [run, List.foldlM_cons, Document.step, Step.fitsAll]
    cases step.fits document.indentWidth document.level with
    | false => rfl
    | true => exact ih (document.add step)

theorem run_eq_some_iff {document after : Document} {steps : List Step} :
    document.run steps = some after ↔
      Step.fitsAll document.indentWidth document.level steps = true ∧
        after = document.addAll steps := by
  rw [run_eq, Option.ite_none_right_eq_some, Option.some_inj, eq_comm (a := after)]

theorem run_eq_none_iff {document : Document} {steps : List Step} :
    document.run steps = none ↔
      Step.fitsAll document.indentWidth document.level steps = false := by
  rw [run_eq]
  simp

theorem step_eq_run (document : Document) (step : Step) :
    document.step step = document.run [step] := by
  simp [run]

/-- A scope that is run has its opening brace first, and then the steps of its body. -/
theorem exists_of_run_scope {document closed : Document} {steps : List Step}
    (ran : document.run (Step.scope steps) = some closed) :
    ∃ opened inner, document.run [.line "\x7b", .indent] = some opened ∧
      opened.run steps = some inner := by
  rw [Step.scope_eq, run_append, Option.bind_eq_bind, Option.bind_eq_some_iff] at ran
  obtain ⟨opened, opens, rest⟩ := ran
  rw [run_append, Option.bind_eq_bind, Option.bind_eq_some_iff] at rest
  obtain ⟨inner, onward, -⟩ := rest
  exact ⟨opened, inner, opens, onward⟩

/-- If a body is a run of steps, so is the scope around it. -/
theorem scope_run {Report : Type} (document : Document) (steps : List Step) (report : Report) :
    document.scope (fun opened => (opened.run steps).map (·, report)) =
      (document.run (Step.scope steps)).map (·, report) := by
  rw [Step.scope_eq, run_append, scope]
  cases document.run [.line "\x7b", .indent] with
  | none => rfl
  | some opened =>
    simp only [Option.bind_eq_bind, Option.bind_some, run_append]
    cases opened.run steps with
    | none => rfl
    | some inner =>
      simp only [Option.map_some, Option.bind_some]
      cases inner.run [.dedent, .line "\x7d"] <;> rfl

/-- What a body reports does not matter to what a scope writes. -/
theorem map_fst_scope {Report Other : Type} {document : Document}
    {body : Document → Option (Document × Report)} {other : Document → Option (Document × Other)}
    (same : ∀ opened, (body opened).map Prod.fst = (other opened).map Prod.fst) :
    (document.scope body).map Prod.fst = (document.scope other).map Prod.fst := by
  rw [scope, scope]
  cases document.run [.line "\x7b", .indent] with
  | none => rfl
  | some opened =>
    have inside := same opened
    rcases left : body opened with _ | ⟨inner, report⟩ <;>
      rcases right : other opened with _ | ⟨inner', report'⟩ <;>
      simp only [left, right, Option.map_none, Option.map_some, reduceCtorEq,
        Option.some.injEq] at inside
    · simp [left, right]
    · subst inside
      cases closed : inner.run [.dedent, .line "\x7d"] <;> simp [left, right, closed]

theorem render_eq (indentWidth : UInt64) (steps : List Step) :
    render indentWidth steps = Step.layOut indentWidth 0 steps := by
  rw [render, addAll_eq]
  exact String.empty_append

/-- The lines of a document are those of its steps, and an empty one at the end. -/
theorem textLines_render (indentWidth : UInt64) (steps : List Step) :
    textLines (render indentWidth steps).toList =
      (Step.linesFrom 0 steps).map (TextLine.chars indentWidth) ++ [[]] := by
  have laidOut := Step.textLines_layOut indentWidth 0 steps []
  rwa [List.append_nil, ← render_eq] at laidOut

end Document

/-! ## Blocks -/

namespace Block

mutual

theorem map_fst_trace (document : Document) :
    (block : Block) → (block.trace document).map Prod.fst = document.run block.steps
  | step s => by
    rw [trace, steps, ← Document.step_eq_run]
    cases document.step s <;> rfl
  | scope body => by
    have inside : (document.scope fun opened => traceAll opened body).map Prod.fst =
        document.run (Step.scope (stepsAll body)) := by
      have runs (opened : Document) : (traceAll opened body).map Prod.fst =
          ((opened.run (stepsAll body)).map (·, ())).map Prod.fst := by
        rw [map_fst_traceAll opened body, Option.map_map]
        exact (congrFun Option.map_id _).symm
      rw [Document.map_fst_scope runs, Document.scope_run, Option.map_map]
      exact congrFun Option.map_id _
    rw [trace, steps, ← inside]
    cases document.scope fun opened => traceAll opened body <;> rfl

/-- Recording what blocks do is running their steps. -/
theorem map_fst_traceAll (document : Document) :
    (blocks : List Block) →
      (traceAll document blocks).map Prod.fst = document.run (stepsAll blocks)
  | [] => by rw [traceAll, stepsAll]; rfl
  | first :: rest => by
    rw [traceAll, stepsAll, Document.run_append, ← map_fst_trace document first]
    rcases first.trace document with _ | ⟨between, records⟩
    · rfl
    · simp only [Option.map_some, Option.bind_eq_bind, Option.bind_some,
        ← map_fst_traceAll between rest]
      cases traceAll between rest <;> rfl

end

end Block
end OperatorGen
