/-!
# Documents

Code is emitted as steps: a line, or a change of the indentation level (`Step`). A document
turns steps into text: a line that is not empty gets the spaces of the current level in
front, and only in front of its first character, so that line feeds inside it are kept as
they are. The level never goes below zero. The spaces of a line are counted in a word of 64
bits, and the program stops at a line that has more of them (`Document.step`).
`scope` puts steps between braces, one level deeper.
-/
namespace OperatorGen

/-- A step of emitting code. -/
inductive Step where
  /-- Ends a line with this text. -/
  | line (text : String)
  /-- The following lines are one level deeper. -/
  | indent
  /-- The following lines are one level less deep. -/
  | dedent
  deriving DecidableEq, Repr, Inhabited

namespace Step

def blank : Step := line ""

def levelAfter : Step → Nat → Nat
  | line _, level => level
  | indent, level => level + 1
  | dedent, level => level - 1

/-- The number of spaces in front of a line. -/
def spaces (indentWidth : UInt64) (level : Nat) : Nat :=
  level * indentWidth.toNat

/-- Whether the spaces of a step can be counted in a word. Those of an empty line are not
    counted. -/
def fits (indentWidth : UInt64) (level : Nat) : Step → Bool
  | line text => text.isEmpty || spaces indentWidth level < UInt64.size
  | indent => true
  | dedent => true

/-- The text that a step adds at a level. -/
def text (indentWidth : UInt64) (level : Nat) : Step → String
  | line text =>
    if text.isEmpty then "\n"
    else String.ofList (List.replicate (spaces indentWidth level) ' ') ++ text ++ "\n"
  | indent => ""
  | dedent => ""

/-- The text that steps add from a level on. -/
def layOut (indentWidth : UInt64) : (level : Nat) → List Step → String
  | _, [] => ""
  | level, step :: rest =>
    step.text indentWidth level ++ layOut indentWidth (step.levelAfter level) rest

def levelAfterAll (level : Nat) (steps : List Step) : Nat :=
  steps.foldl (fun level step => step.levelAfter level) level

/-- Steps one level deeper. -/
def nested (steps : List Step) : List Step :=
  [indent] ++ steps ++ [dedent]

/-- Steps between braces, one level deeper. -/
def scope (steps : List Step) : List Step :=
  [line "\x7b"] ++ nested steps ++ [line "\x7d"]

end Step

/-- The text emitted so far, and the level at which it goes on. -/
structure Document where
  indentWidth : UInt64
  level : Nat := 0
  text : String := ""
  deriving DecidableEq, Repr

namespace Document

/-- The width of a level where none is asked for. -/
def standardWidth : UInt64 := 4

/-- The document with a step behind it, however many spaces that takes. -/
def add (document : Document) (step : Step) : Document where
  indentWidth := document.indentWidth
  level := step.levelAfter document.level
  text := document.text ++ step.text document.indentWidth document.level

/-- Appends a step. There is no document if the spaces cannot be counted: the program stops. -/
def step (document : Document) (step : Step) : Option Document :=
  if step.fits document.indentWidth document.level then some (document.add step) else none

def run (document : Document) (steps : List Step) : Option Document :=
  steps.foldlM Document.step document

/-- Writes an opening brace, hands the document to the body one level deeper, and writes the
    closing brace. What the body reports is handed on, and does not keep the scope open. -/
def scope {Report : Type} (document : Document)
    (body : Document → Option (Document × Report)) : Option (Document × Report) := do
  let opened ← document.run [.line "\x7b", .indent]
  let (inner, report) ← body opened
  let closed ← inner.run [.dedent, .line "\x7d"]
  return (closed, report)

def addAll (document : Document) (steps : List Step) : Document :=
  steps.foldl add document

/-- The text of steps as a whole document, at every width. (A file has lines at the first level
    in front of all deeper ones. Where the spaces of a deeper line cannot be counted, those of
    the first level already fill more than the memory of a machine.) -/
def render (indentWidth : UInt64) (steps : List Step) : String :=
  (addAll { indentWidth } steps).text

end Document

/-! ## Blocks -/

/-- Steps with scopes among them, nested to any depth. -/
inductive Block where
  | step (step : Step)
  | scope (body : List Block)
  deriving Inhabited

namespace Block

mutual

def steps : Block → List Step
  | step s => [s]
  | scope body => Step.scope (stepsAll body)

def stepsAll : List Block → List Step
  | [] => []
  | first :: rest => steps first ++ stepsAll rest

end

/-- What a block has done to a document: the level after it and the text it added. -/
structure Record where
  level : Nat
  added : String
  deriving DecidableEq, Repr

mutual

/-- The document after a block, with a record of the block and of every block inside. A
    scope comes after what is inside it, and it added all from its one brace to the other. -/
def trace (document : Document) : Block → Option (Document × List Record)
  | step s => do
    let after ← document.step s
    return (after, [⟨after.level, s.text document.indentWidth document.level⟩])
  | scope body => do
    let (after, records) ← document.scope fun opened => traceAll opened body
    return (after, records ++ [⟨after.level, String.ofList
      (after.text.toList.drop document.text.length)⟩])

def traceAll (document : Document) : List Block → Option (Document × List Record)
  | [] => some (document, [])
  | first :: rest => do
    let (between, records) ← trace document first
    let (after, others) ← traceAll between rest
    return (after, records ++ others)

end

end Block
end OperatorGen
