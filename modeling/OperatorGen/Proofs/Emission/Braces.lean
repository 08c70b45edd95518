import OperatorGen.Proofs.Document

/-!
# Braces

The lines of a text that are nothing but a brace open and close blocks. They are balanced
if every brace that is opened is closed with the same indentation, around a balanced text
(`Balanced`). Steps are nested if they are put together from ordinary lines, levels and
blocks (`Nested`): what is laid out from such steps is balanced, and they end at the level at
which they began.
-/
namespace OperatorGen

/-- A line that is nothing but a brace, with the number of spaces in front of it. -/
inductive Brace where
  | opening (indentation : Nat)
  | closing (indentation : Nat)
  deriving DecidableEq, Repr

/-- What a line is behind its indentation: a brace, or something else. -/
def brace? (line : List Char) : Option Brace :=
  let indentation := (line.takeWhile (· == ' ')).length
  match line.dropWhile (· == ' ') with
  | ['\x7b'] => some (.opening indentation)
  | ['\x7d'] | ['\x7d', ';'] => some (.closing indentation)
  | _ => none

/-- The braces of a text, line by line. -/
def bracesOf (text : String) : List Brace :=
  (textLines text.toList).filterMap brace?

/-- Every brace that is opened is closed with the same indentation. -/
inductive Balanced : List Brace → Prop
  | nil : Balanced []
  | block {indentation : Nat} {inside rest : List Brace} (balanced : Balanced inside)
    (others : Balanced rest) :
    Balanced (.opening indentation :: (inside ++ .closing indentation :: rest))

namespace Balanced

theorem append {first second : List Brace} (balanced : Balanced first)
    (others : Balanced second) : Balanced (first ++ second) := by
  induction balanced with
  | nil => exact others
  | block balanced _ _ ih =>
    rw [List.cons_append, List.append_assoc, List.cons_append]
    exact .block balanced ih

end Balanced

/-! ## Depth -/

/-- How many of the braces are still open behind them: openings less closings. -/
def depth : List Brace → Int
  | [] => 0
  | .opening _ :: rest => depth rest + 1
  | .closing _ :: rest => depth rest - 1

theorem depth_append (first second : List Brace) :
    depth (first ++ second) = depth first + depth second := by
  induction first with
  | nil => simp [depth]
  | cons brace rest ih => cases brace <;> simp only [List.cons_append, depth, ih] <;> omega

theorem Balanced.depth_eq {braces : List Brace} (balanced : Balanced braces) :
    depth braces = 0 := by
  induction balanced with
  | nil => rfl
  | block _ _ inside others =>
    simp only [depth, depth_append, inside, others]
    omega

/-- Braces that close nothing but what they have opened, or what was open before. -/
def StaysAbove (before : Int) (braces : List Brace) : Prop :=
  ∀ first, first <+: braces → 0 ≤ before + depth first

theorem staysAbove_nil {before : Int} (up : 0 ≤ before) : StaysAbove before [] := by
  intro first isPrefix
  rw [List.prefix_nil.mp isPrefix]
  simpa [depth] using up

theorem staysAbove_cons {before : Int} {brace : Brace} {rest : List Brace} (up : 0 ≤ before)
    (others : StaysAbove (before + depth [brace]) rest) :
    StaysAbove before (brace :: rest) := by
  intro first isPrefix
  rcases List.prefix_cons_iff.mp isPrefix with rfl | ⟨more, rfl, inRest⟩
  · simpa [depth] using up
  · have later := others more inRest
    rw [← List.singleton_append, depth_append]
    omega

/-- Balanced braces need nothing that was open before, and leave it open. -/
theorem Balanced.staysAbove_append {braces others : List Brace} (balanced : Balanced braces)
    {before : Int} (up : 0 ≤ before) (later : StaysAbove before others) :
    StaysAbove before (braces ++ others) := by
  induction balanced generalizing before others with
  | nil => exact later
  | @block indentation inside rest _ _ ihInside ihRest =>
    have behind : StaysAbove before (rest ++ others) := ihRest up later
    have closes : StaysAbove (before + 1) (.closing indentation :: (rest ++ others)) := by
      refine staysAbove_cons (by omega) ?_
      rwa [depth, depth, show before + 1 + (0 - 1) = before by omega]
    rw [List.cons_append, List.append_assoc, List.cons_append]
    refine staysAbove_cons up ?_
    exact ihInside (by simp [depth]; omega) closes

/-- The depth of balanced braces is never negative. -/
theorem Balanced.staysAbove {braces : List Brace} (balanced : Balanced braces) :
    StaysAbove 0 braces := by
  have whole := balanced.staysAbove_append (Int.le_refl 0) (staysAbove_nil (Int.le_refl 0))
  rwa [List.append_nil] at whole

/-! ## Nested steps -/

/-- A text that is one line, and not a brace. -/
def Ordinary (text : String) : Prop :=
  '\n' ∉ text.toList ∧ brace? text.toList = none

/-- Steps of ordinary lines, levels and blocks. -/
inductive Nested : List Step → Prop
  | nil : Nested []
  | line {text : String} (ordinary : Ordinary text) : Nested [.line text]
  | append {first second : List Step} (nested : Nested first) (others : Nested second) :
    Nested (first ++ second)
  | level {steps : List Step} (nested : Nested steps) : Nested (Step.nested steps)
  | block {steps : List Step} {close : String} (nested : Nested steps)
    (closes : close = "\x7d" ∨ close = "\x7d;") :
    Nested ([.line "\x7b"] ++ steps ++ [.line close])

/-- Spaces in front of a line add to its indentation and change nothing else. -/
theorem brace?_replicate_append (count : Nat) (line : List Char) :
    brace? (List.replicate count ' ' ++ line) = (brace? line).map fun
      | .opening indentation => .opening (count + indentation)
      | .closing indentation => .closing (count + indentation) := by
  have blank : ∀ c ∈ List.replicate count ' ', (c == ' ') = true := by
    intro c member
    rw [List.eq_of_mem_replicate member]
    rfl
  unfold brace?
  rw [List.takeWhile_append_of_pos blank, List.dropWhile_append_of_pos blank, List.length_append,
    List.length_replicate]
  split <;> rfl

namespace Nested

variable {indentWidth : UInt64} {level : Nat}

/-- A line that is not a brace adds none. -/
theorem braces_ordinary {text : String} (ordinary : Ordinary text) :
    (((Step.line text).lines level).map (TextLine.chars indentWidth)).filterMap brace? = [] := by
  rw [Step.lines_of_not_mem ordinary.1]
  simp [TextLine.chars, brace?_replicate_append, ordinary.2]

theorem braces_open :
    (((Step.line "\x7b").lines level).map (TextLine.chars indentWidth)).filterMap brace? =
      [.opening (Step.spaces indentWidth level)] := by
  rw [Step.lines_of_not_mem (by decide)]
  simp [TextLine.chars, brace?]

theorem braces_close {close : String} (closes : close = "\x7d" ∨ close = "\x7d;") :
    (((Step.line close).lines level).map (TextLine.chars indentWidth)).filterMap brace? =
      [.closing (Step.spaces indentWidth level)] := by
  rcases closes with rfl | rfl <;>
  · rw [Step.lines_of_not_mem (by decide)]
    simp [TextLine.chars, brace?]

/-- Nested steps end at the level at which they began. -/
theorem levelAfterAll_eq {steps : List Step} (nested : Nested steps) (level : Nat) :
    Step.levelAfterAll level steps = level := by
  induction nested generalizing level with
  | nil => rfl
  | line _ => rfl
  | append _ _ first second => rw [Step.levelAfterAll_append, first, second]
  | level _ ih =>
    simp only [Step.nested, Step.levelAfterAll_append, Step.levelAfterAll_cons,
      Step.levelAfterAll_nil, Step.levelAfter, ih]
    exact Nat.add_sub_cancel level 1
  | block _ _ ih =>
    simp only [Step.levelAfterAll_append, Step.levelAfterAll_cons, Step.levelAfterAll_nil,
      Step.levelAfter, ih]

/-- The braces of nested steps are balanced, at any level and width. -/
theorem balanced {steps : List Step} (nested : Nested steps) (level : Nat) :
    Balanced (((Step.linesFrom level steps).map (TextLine.chars indentWidth)).filterMap
      brace?) := by
  induction nested generalizing level with
  | nil => exact .nil
  | line ordinary =>
    rw [Step.linesFrom, Step.linesFrom, List.append_nil, braces_ordinary ordinary]
    exact .nil
  | append first _ ihFirst ihSecond =>
    rw [Step.linesFrom_append, List.map_append, List.filterMap_append]
    exact (ihFirst level).append (ihSecond _)
  | @level steps nested ih =>
    have same : Step.linesFrom level (Step.nested steps) = Step.linesFrom (level + 1) steps := by
      simp [Step.nested, Step.linesFrom, Step.linesFrom_append, Step.lines, Step.levelAfter]
    rw [same]
    exact ih (level + 1)
  | @block steps close nested closes ih =>
    have around : ((Step.linesFrom level ([Step.line "\x7b"] ++ steps ++ [Step.line close])).map
          (TextLine.chars indentWidth)).filterMap brace? =
        .opening (Step.spaces indentWidth level) ::
          (((Step.linesFrom level steps).map (TextLine.chars indentWidth)).filterMap brace? ++
            [Brace.closing (Step.spaces indentWidth level)]) := by
      simp only [Step.linesFrom_append, Step.linesFrom, List.append_nil, List.map_append,
        List.filterMap_append, braces_open, braces_close closes, Step.levelAfterAll_cons,
        Step.levelAfter, nested.levelAfterAll_eq, List.append_assoc, List.singleton_append]
    rw [around]
    exact .block (ih level) .nil

/-- A document of nested steps has balanced braces. -/
theorem balanced_render {steps : List Step} (nested : Nested steps) :
    Balanced (bracesOf (Document.render indentWidth steps)) := by
  rw [bracesOf, Document.textLines_render, List.filterMap_append]
  exact (nested.balanced 0).append .nil

/-! ## Steps put together -/

theorem cons {step : Step} {rest : List Step} (first : Nested [step]) (others : Nested rest) :
    Nested (step :: rest) :=
  .append first others

theorem scope {steps : List Step} (nested : Nested steps) : Nested (Step.scope steps) :=
  .block nested.level (.inl rfl)

theorem flatMap {α : Type} {list : List α} {steps : α → List Step}
    (each : ∀ x ∈ list, Nested (steps x)) : Nested (list.flatMap steps) := by
  induction list with
  | nil => exact .nil
  | cons first rest ih =>
    rw [List.flatMap_cons]
    exact .append (each first (by simp)) (ih fun x member => each x (by simp [member]))

theorem map {α : Type} {list : List α} {step : α → Step}
    (each : ∀ x ∈ list, Nested [step x]) : Nested (list.map step) := by
  rw [List.map_eq_flatMap]
  exact flatMap each

end Nested
end OperatorGen
