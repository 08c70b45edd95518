import OperatorGen.Document

/-!
# Code by its levels

A line heads the deeper steps behind it, up to the next line of its own level. Steps are read
so, line by line (`Step.headings`): what is nested behind a line belongs to it as a whole, if
the nested steps come back to their level and never go below it (`Leveled`).
-/
namespace OperatorGen

/-- A line with the deeper steps behind it. -/
structure Heading where
  text : String
  behind : List Step
  deriving DecidableEq, Repr

namespace Step

/-- Reads steps that begin at a depth below the level that is read: the steps in front of the
    first line of that level, and the headings from there on. -/
def readHeadings : (depth : Nat) → List Step → List Step × List Heading
  | _, [] => ([], [])
  | 0, .line text :: rest =>
    let (behind, others) := readHeadings 0 rest
    ([], ⟨text, behind⟩ :: others)
  | depth, step :: rest =>
    let (behind, others) := readHeadings (step.levelAfter depth) rest
    (step :: behind, others)

/-- The lines of the level at which steps begin, each with the deeper steps behind it. -/
def headings (steps : List Step) : List Heading :=
  (readHeadings 0 steps).2

/-- A line that has nothing behind it. -/
def bare (text : String) : Heading :=
  ⟨text, []⟩

end Step

/-- Whether a step ends a line and stays at its level. -/
def Step.isLine : Step → Bool
  | line _ => true
  | _ => false

/-- Steps that come back to the level at which they begin, and never go below it. -/
inductive Leveled : List Step → Prop
  | nil : Leveled []
  | line {rest : List Step} (text : String) (others : Leveled rest) : Leveled (.line text :: rest)
  | deeper {inner rest : List Step} (leveled : Leveled inner) (others : Leveled rest) :
    Leveled (Step.nested inner ++ rest)

namespace Leveled

variable {first second steps : List Step}

theorem append (leveled : Leveled first) (others : Leveled second) : Leveled (first ++ second) := by
  induction leveled with
  | nil => exact others
  | line text _ ih => exact .line text ih
  | deeper inner _ _ ih =>
    rw [List.append_assoc]
    exact .deeper inner ih

theorem nested (leveled : Leveled steps) : Leveled (Step.nested steps) := by
  have alone := Leveled.deeper leveled .nil
  rwa [List.append_nil] at alone

theorem scope (leveled : Leveled steps) : Leveled (Step.scope steps) :=
  .line _ (leveled.nested.append (.line _ .nil))

theorem flatMap {α : Type} {list : List α} {make : α → List Step}
    (each : ∀ x ∈ list, Leveled (make x)) : Leveled (list.flatMap make) := by
  induction list with
  | nil => exact .nil
  | cons x rest ih =>
    rw [List.flatMap_cons]
    rw [List.forall_mem_cons] at each
    exact each.1.append (ih each.2)

theorem of_lines (lines : ∀ step ∈ steps, step.isLine = true) : Leveled steps := by
  induction steps with
  | nil => exact .nil
  | cons step rest ih =>
    rw [List.forall_mem_cons] at lines
    cases step with
    | line text => exact .line text (ih lines.2)
    | indent => cases lines.1
    | dedent => cases lines.1

end Leveled

namespace Step

variable {steps rest : List Step}

theorem readHeadings_line (text : String) (rest : List Step) :
    readHeadings 0 (line text :: rest) =
      ([], ⟨text, (readHeadings 0 rest).1⟩ :: headings rest) := rfl

theorem readHeadings_succ_line (depth : Nat) (text : String) (rest : List Step) :
    readHeadings (depth + 1) (line text :: rest) =
      (line text :: (readHeadings (depth + 1) rest).1, (readHeadings (depth + 1) rest).2) := rfl

/-- Opening and closing a level keeps a reader at its depth, and both belong to the line in
    front. -/
theorem readHeadings_nested_of (depth : Nat) {inner : List Step}
    (deeper : ∀ others, readHeadings (depth + 1) (inner ++ others) =
      (inner ++ (readHeadings (depth + 1) others).1, (readHeadings (depth + 1) others).2))
    (rest : List Step) :
    readHeadings depth (nested inner ++ rest) =
      (nested inner ++ (readHeadings depth rest).1, (readHeadings depth rest).2) := by
  have opened : readHeadings depth (nested inner ++ rest) =
      (indent :: (readHeadings (depth + 1) (inner ++ dedent :: rest)).1,
        (readHeadings (depth + 1) (inner ++ dedent :: rest)).2) := by
    rw [nested, List.append_assoc, List.append_assoc]
    cases depth <;> rfl
  have closed : readHeadings (depth + 1) (dedent :: rest) =
      (dedent :: (readHeadings depth rest).1, (readHeadings depth rest).2) := rfl
  rw [opened, deeper, closed]
  simp [nested]

/-- Below the level that is read, leveled steps belong to the line in front of them. -/
theorem readHeadings_of_leveled (leveled : Leveled steps) (depth : Nat) (rest : List Step) :
    readHeadings (depth + 1) (steps ++ rest) =
      (steps ++ (readHeadings (depth + 1) rest).1, (readHeadings (depth + 1) rest).2) := by
  induction leveled generalizing depth rest with
  | nil => rfl
  | line text _ ih => rw [List.cons_append, readHeadings_succ_line, ih, List.cons_append]
  | deeper _ _ inner later =>
    rw [List.append_assoc, readHeadings_nested_of (depth + 1) (inner (depth + 1)), later,
      List.append_assoc]

theorem readHeadings_nested (leveled : Leveled steps) (rest : List Step) :
    readHeadings 0 (nested steps ++ rest) =
      (nested steps ++ (readHeadings 0 rest).1, headings rest) :=
  readHeadings_nested_of 0 (readHeadings_of_leveled leveled 0) rest

/-! ## Headings -/

/-- Steps with nothing in front of their first line. -/
def BeginsLine (steps : List Step) : Prop :=
  (readHeadings 0 steps).1 = []

theorem beginsLine_nil : BeginsLine [] := rfl

theorem beginsLine_line (text : String) (rest : List Step) : BeginsLine (line text :: rest) := rfl

theorem headings_line (text : String) (begins : BeginsLine rest) :
    headings (line text :: rest) = bare text :: headings rest := by
  rw [headings, readHeadings_line, begins]
  rfl

/-- What is nested behind a line belongs to it, up to the next line. -/
theorem headings_line_nested (text : String) (leveled : Leveled steps) (begins : BeginsLine rest) :
    headings (line text :: (nested steps ++ rest)) = ⟨text, nested steps⟩ :: headings rest := by
  rw [headings, readHeadings_line, headings, readHeadings_nested leveled, begins, List.append_nil]

section

variable {α : Type} (list : List α) (label : α → String) {inner : α → List Step}
  (leveled : ∀ x, Leveled (inner x)) (begins : BeginsLine rest)
include leveled begins

/-- Labels are read one by one, each with what is nested behind it. -/
theorem headings_labels :
    BeginsLine ((list.flatMap fun x => [.line (label x)] ++ nested (inner x)) ++ rest) ∧
      headings ((list.flatMap fun x => [.line (label x)] ++ nested (inner x)) ++ rest) =
        list.map (fun x => ⟨label x, nested (inner x)⟩) ++ headings rest := by
  induction list with
  | nil => exact ⟨begins, rfl⟩
  | cons x others ih =>
    rw [List.flatMap_cons, List.append_assoc, List.map_cons]
    refine ⟨rfl, (headings_line_nested (label x) (leveled x) ih.1).trans ?_⟩
    rw [ih.2, List.cons_append]

/-- A switch is read as its line and the brace behind it, and then its labels. -/
theorem headings_switch (text : String) :
    headings ([.line text, .line "\x7b"] ++
        (list.flatMap fun x => [.line (label x)] ++ nested (inner x)) ++ rest) =
      [bare text, bare "\x7b"] ++ list.map (fun x => ⟨label x, nested (inner x)⟩) ++
        headings rest := by
  obtain ⟨opened, labels⟩ := headings_labels list label leveled begins
  rw [List.append_assoc, List.append_assoc, ← labels]
  refine (headings_line text (beginsLine_line _ _)).trans ?_
  exact congrArg _ (headings_line "\x7b" opened)

end

end Step
end OperatorGen
