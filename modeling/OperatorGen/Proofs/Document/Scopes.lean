import Mathlib
import OperatorGen.Proofs.Document

/-!
# Scopes

A document only grows: every step appends to what is there. The level falls no further than to
zero, so that a step out does not always undo a step in. It does where steps never fall below
the level that they start at (`Balanced`), and a scope around such steps leaves the level as it
was and has both its braces at it, also where the body stops with an error (`runAll_grows`).
-/
namespace OperatorGen

namespace Step

/-! ## What steps write -/

/-- What a step adds at a level, with the spaces of a line counted without a bound. -/
def written (width level : Nat) : Step → List Char
  | line text =>
    if text = "" then ['\n'] else List.replicate (level * width) ' ' ++ text.toList ++ ['\n']
  | indent => []
  | dedent => []

def writtenFrom (width : Nat) : (level : Nat) → List Step → List Char
  | _, [] => []
  | level, step :: rest =>
    step.written width level ++ writtenFrom width (step.levelAfter level) rest

theorem writtenFrom_append (width level : Nat) (first second : List Step) :
    writtenFrom width level (first ++ second) =
      writtenFrom width level first ++ writtenFrom width (levelAfterAll level first) second := by
  induction first generalizing level with
  | nil => rfl
  | cons step rest ih => simp [writtenFrom, ih]

/-- At every level that the steps reach, the spaces of a line can be counted in a word. -/
def Fits (indentWidth : UInt64) (level : Nat) (steps : List Step) : Prop :=
  ∀ before, before <+: steps → levelAfterAll level before * indentWidth.toNat < UInt64.size

instance decidablePrefixes {P : List Step → Prop} [DecidablePred P] (steps : List Step) :
    Decidable (∀ before, before <+: steps → P before) :=
  decidable_of_iff (∀ before ∈ steps.inits, P before) (by simp only [List.mem_inits])

instance (indentWidth : UInt64) (level : Nat) (steps : List Step) :
    Decidable (Fits indentWidth level steps) :=
  inferInstanceAs (Decidable (∀ before, before <+: steps → _))

theorem Fits.head {indentWidth : UInt64} {level : Nat} {steps : List Step}
    (fits : Fits indentWidth level steps) : level * indentWidth.toNat < UInt64.size :=
  fits [] List.nil_prefix

/-- Steps fit behind the steps that they follow. -/
theorem Fits.rest {indentWidth : UInt64} {level : Nat} {before steps after : List Step}
    (fits : Fits indentWidth level (before ++ steps ++ after)) :
    Fits indentWidth (levelAfterAll level before) steps := by
  intro first inside
  rw [← levelAfterAll_append]
  apply fits
  exact ((List.prefix_append_right_inj before).mpr inside).trans (List.prefix_append _ _)

theorem Fits.fitsAll {indentWidth : UInt64} {level : Nat} {steps : List Step}
    (fits : Fits indentWidth level steps) : fitsAll indentWidth level steps = true := by
  induction steps generalizing level with
  | nil => rfl
  | cons step rest ih =>
    have here : step.fits indentWidth level = true := by
      cases step with
      | line text => exact fits_line_iff.mpr fun _ => fits.head
      | indent => rfl
      | dedent => rfl
    have behind : Fits indentWidth (step.levelAfter level) rest := by
      have split : step :: rest = [step] ++ rest ++ [] := by simp
      rw [split] at fits
      exact fits.rest
    rw [Step.fitsAll, here, ih behind]
    rfl

theorem toList_text (indentWidth : UInt64) (level : Nat) (step : Step) :
    (step.text indentWidth level).toList = step.written indentWidth.toNat level := by
  cases step with
  | line text =>
    rw [toList_text_line, written]
    by_cases empty : text = ""
    · subst empty
      simp
    · have shown : text.isEmpty = false := by simpa using empty
      simp [empty, shown, spaces]
  | indent => rfl
  | dedent => rfl

theorem toList_layOut (indentWidth : UInt64) (level : Nat) (steps : List Step) :
    (layOut indentWidth level steps).toList = writtenFrom indentWidth.toNat level steps := by
  induction steps generalizing level with
  | nil => rfl
  | cons step rest ih => rw [layOut, String.toList_append, toList_text, ih, writtenFrom]

/-! ## Levels -/

/-- By how much a step changes the level, if the level does not stop at zero. -/
def change : Step → Int
  | line _ => 0
  | indent => 1
  | dedent => -1

def changeAll (steps : List Step) : Int :=
  (steps.map change).sum

/-- Steps that never fall below where they start, and end there. -/
structure Balanced (steps : List Step) : Prop where
  above : ∀ before, before <+: steps → 0 ≤ changeAll before
  back : changeAll steps = 0

/-- Steps whose levels are, from a level on, never below it and at last the same. -/
structure Returns (level : Nat) (steps : List Step) : Prop where
  above : ∀ before, before <+: steps → level ≤ levelAfterAll level before
  back : levelAfterAll level steps = level

instance : DecidablePred Balanced := fun steps =>
  decidable_of_iff ((∀ before, before <+: steps → 0 ≤ changeAll before) ∧ changeAll steps = 0)
    ⟨fun ⟨above, back⟩ => ⟨above, back⟩, fun ⟨above, back⟩ => ⟨above, back⟩⟩

theorem changeAll_concat (steps : List Step) (step : Step) :
    changeAll (steps ++ [step]) = changeAll steps + step.change := by
  simp [changeAll]

theorem levelAfterAll_concat (level : Nat) (steps : List Step) (step : Step) :
    levelAfterAll level (steps ++ [step]) = step.levelAfter (levelAfterAll level steps) := by
  simp

/-- Unless a step takes the level to zero, it changes it by as much as it says. -/
theorem levelAfter_eq (step : Step) {level : Nat}
    (positive : 0 < step.levelAfter level ∨ 0 ≤ level + step.change) :
    (step.levelAfter level : Int) = level + step.change := by
  cases step with
  | line text => simp [levelAfter, change]
  | indent => simp [levelAfter, change]
  | dedent =>
    simp only [levelAfter, change] at positive ⊢
    omega

/-- Steps change a level by what they say, unless one of them takes it to zero. -/
theorem levelAfterAll_eq (level : Nat) {steps : List Step}
    (positive : ∀ before, before <+: steps →
      0 < levelAfterAll level before ∨ 0 ≤ level + changeAll before) :
    (levelAfterAll level steps : Int) = level + changeAll steps := by
  induction steps using List.reverseRecOn with
  | nil => simp [changeAll]
  | append_singleton before step ih =>
    have reached := ih fun first inside => positive first (inside.trans (List.prefix_append _ _))
    have last := positive _ List.prefix_rfl
    rw [levelAfterAll_concat, changeAll_concat, ← Int.add_assoc, ← reached] at last
    rw [levelAfterAll_concat, changeAll_concat, levelAfter_eq step last, reached]
    omega

/-- Steps that never fall below where they start change every level by what they say. -/
theorem levelAfterAll_of_above (level : Nat) {steps : List Step}
    (above : ∀ before, before <+: steps → 0 ≤ changeAll before) :
    (levelAfterAll level steps : Int) = level + changeAll steps :=
  levelAfterAll_eq level fun before inside =>
    .inr (Int.add_nonneg (Int.natCast_nonneg level) (above before inside))

/-- So do steps whose levels never fall below the one they start at, as this is not zero. -/
theorem levelAfterAll_of_le {level : Nat} {steps : List Step} (positive : 0 < level)
    (above : ∀ before, before <+: steps → level ≤ levelAfterAll level before) :
    (levelAfterAll level steps : Int) = level + changeAll steps :=
  levelAfterAll_eq level fun before inside =>
    .inl (Nat.lt_of_lt_of_le positive (above before inside))

/-- From a level above zero on, steps return to it exactly if they are balanced: it does not
    matter which level it is. -/
theorem balanced_iff_returns {level : Nat} (positive : 0 < level) {steps : List Step} :
    Balanced steps ↔ Returns level steps := by
  constructor
  · intro balanced
    have reached (before : List Step) (inside : before <+: steps) :=
      levelAfterAll_of_above level fun first within => balanced.above first (within.trans inside)
    refine ⟨fun before inside => ?_, ?_⟩
    · have := reached before inside
      have := balanced.above before inside
      omega
    · have := reached steps List.prefix_rfl
      have := balanced.back
      omega
  · intro returns
    have reached (before : List Step) (inside : before <+: steps) :=
      levelAfterAll_of_le positive fun first within => returns.above first (within.trans inside)
    refine ⟨fun before inside => ?_, ?_⟩
    · have := reached before inside
      have := returns.above before inside
      omega
    · have := reached steps List.prefix_rfl
      have := returns.back
      omega

/-- A scope around balanced steps leaves the level as it was. -/
theorem Balanced.levelAfterAll_scope {steps : List Step} (balanced : Balanced steps)
    (level : Nat) : levelAfterAll level (scope steps) = level := by
  have back : levelAfterAll (level + 1) steps = level + 1 :=
    ((balanced_iff_returns (Nat.succ_pos level)).mp balanced).back
  simp [scope, nested, levelAfter, back]

/-- Both braces of a scope around balanced steps have the indentation of the level outside. -/
theorem Balanced.writtenFrom_scope {steps : List Step} (balanced : Balanced steps)
    (width level : Nat) :
    writtenFrom width level (scope steps) =
      List.replicate (level * width) ' ' ++ ['\x7b', '\n'] ++
        writtenFrom width (level + 1) steps ++
        List.replicate (level * width) ' ' ++ ['\x7d', '\n'] := by
  have back : levelAfterAll (level + 1) steps = level + 1 :=
    ((balanced_iff_returns (Nat.succ_pos level)).mp balanced).back
  simp [scope, nested, writtenFrom, writtenFrom_append, written, levelAfter, back]

end Step

/-! ## Scripts -/

/-- What may be done to a document: steps, scopes around more of the same, and giving up. -/
inductive Script (ε : Type) where
  | step (step : Step)
  | scope (body : List (Script ε))
  | fail (reason : ε)

namespace Script

variable {ε : Type}

mutual

/-- The document after a script, and what the script reports. -/
def run (document : Document) : Script ε → Option (Document × Except ε Unit)
  | step s => (document.step s).map (·, .ok ())
  | scope body => document.scope fun opened => runAll opened body
  | fail reason => some (document, .error reason)

/-- Scripts are run one after the other, up to the first that reports an error. -/
def runAll (document : Document) : List (Script ε) → Option (Document × Except ε Unit)
  | [] => some (document, .ok ())
  | first :: rest =>
    match run document first with
    | some (after, .ok ()) => runAll after rest
    | some (after, .error reason) => some (after, .error reason)
    | none => none

end

mutual

/-- The steps that a script comes to, and what it reports. -/
def emitted : Script ε → List Step × Except ε Unit
  | step s => ([s], .ok ())
  | scope body => ((Step.scope (emittedAll body).1), (emittedAll body).2)
  | fail reason => ([], .error reason)

def emittedAll : List (Script ε) → List Step × Except ε Unit
  | [] => ([], .ok ())
  | first :: rest =>
    match emitted first with
    | (steps, .ok ()) => (steps ++ (emittedAll rest).1, (emittedAll rest).2)
    | (steps, .error reason) => (steps, .error reason)

end

/-- The run of some scripts enters a scope: the document that it finds, and its body. -/
inductive Enters : Document → List (Script ε) → Document → List (Script ε) → Prop where
  | here {document body rest} : Enters document (scope body :: rest) document body
  | inside {document opened body rest entry within}
      (opens : document.run [.line "\x7b", .indent] = some opened)
      (deeper : Enters opened body entry within) :
      Enters document (scope body :: rest) entry within
  | later {document first rest between entry body}
      (passed : run document first = some (between, .ok ()))
      (onward : Enters between rest entry body) :
      Enters document (first :: rest) entry body

/-! ### Runs of scripts -/

mutual

theorem run_eq (document : Document) :
    (script : Script ε) →
      script.run document = (document.run script.emitted.1).map (·, script.emitted.2)
  | step s => by rw [run, emitted, Document.step_eq_run]
  | scope body => by
    rw [run, emitted, ← Document.scope_run]
    exact congrArg document.scope (funext fun opened => runAll_eq opened body)
  | fail reason => by rw [run, emitted]; rfl

/-- A run is a run of steps: those that the scripts come to. -/
theorem runAll_eq (document : Document) :
    (scripts : List (Script ε)) →
      runAll document scripts =
        (document.run (emittedAll scripts).1).map (·, (emittedAll scripts).2)
  | [] => by rw [runAll, emittedAll]; rfl
  | first :: rest => by
    rw [runAll, emittedAll, run_eq document first]
    rcases first.emitted with ⟨steps, ⟨⟩ | ⟨⟨⟩⟩⟩
    · cases document.run steps <;> rfl
    · simp only [Document.run_append]
      cases document.run steps with
      | none => rfl
      | some between => exact runAll_eq between rest

end

/-- The steps of a script come first, and the others follow unless it reports an error. -/
theorem emittedAll_cons (first : Script ε) (rest : List (Script ε)) :
    ∃ others, (emittedAll (first :: rest)).1 = first.emitted.1 ++ others ∧
      (first.emitted.2 = .ok () → others = (emittedAll rest).1) := by
  rw [emittedAll]
  rcases first.emitted with ⟨steps, ⟨⟩ | ⟨⟨⟩⟩⟩
  · exact ⟨[], by simp, nofun⟩
  · exact ⟨_, rfl, fun _ => rfl⟩

/-- A scope is entered behind the first of the steps, and its own steps are next. -/
theorem Enters.exists_steps {start entry : Document} {scripts body : List (Script ε)}
    (enters : Enters start scripts entry body) :
    ∃ before after, start.run before = some entry ∧
      (emittedAll scripts).1 = before ++ (scope body).emitted.1 ++ after := by
  induction enters with
  | @here document body rest =>
    obtain ⟨others, steps, -⟩ := emittedAll_cons (scope body) rest
    exact ⟨[], others, rfl, steps⟩
  | @inside document opened outer rest entry body opens deeper ih =>
    obtain ⟨before, after, reached, steps⟩ := ih
    obtain ⟨others, whole, -⟩ := emittedAll_cons (scope outer) rest
    refine ⟨[Step.line "\x7b", Step.indent] ++ before,
      after ++ [Step.dedent, Step.line "\x7d"] ++ others, ?_, ?_⟩
    · rw [Document.run_append, opens]
      exact reached
    · rw [whole, emitted, Step.scope, Step.nested, steps]
      simp
  | @later document first rest between entry body passed onward ih =>
    obtain ⟨before, after, reached, steps⟩ := ih
    obtain ⟨others, whole, follow⟩ := emittedAll_cons first rest
    rw [run_eq, Option.map_eq_some_iff] at passed
    obtain ⟨_, ran, same⟩ := passed
    obtain ⟨rfl, reported⟩ := Prod.mk.inj same
    refine ⟨first.emitted.1 ++ before, after, ?_, ?_⟩
    · rw [Document.run_append, ran]
      exact reached
    · rw [whole, follow reported, steps]
      simp

/-- If a run comes to an end, it has come to a document after the first of its steps, and what
    was written by then has stayed. -/
theorem exists_run_prefix {start ended : Document} {scripts : List (Script ε)} {before : List Step}
    (ran : start.run (emittedAll scripts).1 = some ended)
    (inside : before <+: (emittedAll scripts).1) :
    ∃ reached, start.run before = some reached ∧ reached.text.toList <+: ended.text.toList := by
  obtain ⟨after, steps⟩ := inside
  rw [← steps, Document.run_append, Option.bind_eq_bind, Option.bind_eq_some_iff] at ran
  obtain ⟨reached, first, second⟩ := ran
  refine ⟨reached, first, ?_⟩
  rw [(Document.run_eq_some_iff.mp second).2]
  exact Document.text_prefix_addAll reached after

/-- A run comes to its end. The text grows by what the steps write, which is the spaces of the
    level in front of a line that is not empty. What is there at any time stays there. A scope
    hands on what its body reports; if the body is balanced, both braces are at the level on
    entry, and so is what follows them, whatever the body reports. -/
theorem runAll_grows (start : Document) (scripts : List (Script ε))
    (fits : Step.Fits start.indentWidth start.level (emittedAll scripts).1) :
    ∃ ended, runAll start scripts = some (ended, (emittedAll scripts).2) ∧
      ended.text.toList =
        start.text.toList ++
          Step.writtenFrom start.indentWidth.toNat start.level (emittedAll scripts).1 ∧
      (∀ before, before <+: (emittedAll scripts).1 →
        ∃ reached, start.run before = some reached ∧
          reached.text.toList <+: ended.text.toList) ∧
      ∀ entry body, Enters start scripts entry body →
        let steps := (emittedAll body).1
        let indentation := List.replicate (entry.level * start.indentWidth.toNat) ' '
        ∃ opened inner closed report,
          entry.run [.line "\x7b", .indent] = some opened ∧
          runAll opened body = some (inner, report) ∧
          (scope body).run entry = some (closed, report) ∧
          closed.text.toList <+: ended.text.toList ∧
          (Step.Balanced steps ↔ Step.Returns opened.level steps) ∧
          (Step.Balanced steps →
            closed.level = entry.level ∧
            closed.text.toList =
              entry.text.toList ++ indentation ++ ['\x7b', '\n'] ++
                Step.writtenFrom start.indentWidth.toNat opened.level steps ++
                indentation ++ ['\x7d', '\n']) := by
  have ran : start.run (emittedAll scripts).1 = some (start.addAll (emittedAll scripts).1) :=
    Document.run_eq_some_iff.mpr ⟨fits.fitsAll, rfl⟩
  refine ⟨_, by rw [runAll_eq, ran]; rfl, ?_, fun before => exists_run_prefix ran, ?_⟩
  · rw [Document.addAll_eq, String.toList_append, Step.toList_layOut]
  intro entry body enters steps indentation
  obtain ⟨before, after, reached, split⟩ := enters.exists_steps
  have widthAt : entry.indentWidth = start.indentWidth := by
    rw [(Document.run_eq_some_iff.mp reached).2, Document.addAll_eq]
  have inside : before ++ Step.scope steps <+: (emittedAll scripts).1 := by
    rw [split, emitted]
    exact List.prefix_append _ _
  obtain ⟨closed, toClosed, stays⟩ := exists_run_prefix ran inside
  rw [Document.run_append, reached] at toClosed
  have left : entry.run (Step.scope steps) = some closed := toClosed
  obtain ⟨opened, inner, opens, onward⟩ := Document.exists_of_run_scope left
  have openedLevel : opened.level = entry.level + 1 := by
    rw [(Document.run_eq_some_iff.mp opens).2]
    rfl
  refine ⟨opened, inner, closed, (emittedAll body).2, opens, ?_, ?_, stays, ?_,
    fun balanced => ⟨?_, ?_⟩⟩
  · rw [runAll_eq, onward]
    rfl
  · rw [run_eq, emitted, left]
    rfl
  · rw [openedLevel]
    exact Step.balanced_iff_returns (Nat.succ_pos _)
  · rw [(Document.run_eq_some_iff.mp left).2, Document.addAll_eq]
    exact balanced.levelAfterAll_scope entry.level
  · rw [(Document.run_eq_some_iff.mp left).2, Document.addAll_eq, String.toList_append,
      Step.toList_layOut, widthAt, balanced.writtenFrom_scope, openedLevel]
    simp only [indentation, List.append_assoc]

/-- A scope inside a scope, whose body gives up one level deeper than it started. -/
theorem runAll_grows_stopped :
    let start : Document := { indentWidth := 4, level := 1 }
    let body : List (Script String) :=
      [.step .indent, .step (.line "b"), .step .dedent, .fail "no", .step .dedent]
    let scripts : List (Script String) :=
      [.step (.line "a"), .scope [.scope body, .step (.line "c")], .step (.line "d")]
    let entry := start.addAll [.line "a", .line "\x7b", .indent]
    Step.Fits start.indentWidth start.level (emittedAll scripts).1 ∧
      Enters start scripts entry body ∧ Step.Balanced (emittedAll body).1 ∧
      ∃ ended, runAll start scripts = some (ended, .error "no") ∧
        ended.text.toList = Step.writtenFrom 4 1
          [.line "a", .line "\x7b", .indent, .line "\x7b", .indent, .indent, .line "b", .dedent,
            .dedent, .line "\x7d", .dedent, .line "\x7d"] ∧
        ∃ closed, (scope body).run entry = some (closed, .error "no") ∧ closed.level = 2 := by
  intro start body scripts entry
  have fits : Step.Fits start.indentWidth start.level (emittedAll scripts).1 := by decide
  have enters : Enters start scripts entry body := .later rfl (.inside rfl .here)
  have balanced : Step.Balanced (emittedAll body).1 := by decide
  obtain ⟨ended, ran, grown, -, scopes⟩ := runAll_grows start scripts fits
  obtain ⟨opened, inner, closed, report, -, -, around, -, -, kept⟩ := scopes entry body enters
  have reported : report = .error "no" := by
    rw [run_eq, Option.map_eq_some_iff] at around
    obtain ⟨_, -, same⟩ := around
    exact (Prod.mk.inj same).2.symm
  exact ⟨fits, enters, balanced, ended, ran, grown, closed, reported ▸ around,
    (kept balanced).1⟩

end Script
end OperatorGen
