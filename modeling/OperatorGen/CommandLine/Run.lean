import OperatorGen.CommandLine.Usage
import OperatorGen.Generation
import OperatorGen.Outline

/-!
# Runs of the program

What the program does with its arguments (`CommandLine.run`), on any disk. A run ends in an
`Outcome`: the text for the standard output, and the failure if there is one. A failure of
a run names the file or the directory that it is about; in front of the causes it says what
could not be done.
-/
namespace OperatorGen.CommandLine

/-- Why a run fails. -/
inductive Failure where
  | usage (reason : UsageError)
  | unknownPreset (name : String)
  | load (path : String) (reason : Error)
  | check (path : String) (reason : Error)
  | print (reason : Unhandled)
  | generate (output : String) (reason : Error)
  deriving Inhabited

namespace Failure

def message : Failure → String
  | usage reason => reason.message
  | unknownPreset name =>
    "unknown preset `" ++ name ++ "` (expected one of: " ++
      ", ".intercalate Config.presetNames ++ ")"
  | load path reason => "failed to load " ++ path ++ ": " ++ reason.chain
  | check path reason => path ++ " is invalid: " ++ reason.chain
  | print reason => reason.message
  | generate output reason => "failed to generate into " ++ output ++ ": " ++ reason.chain

/-- The exit status of a run that fails: a request for help is no failure, and wrong
    arguments are told from a failure at work. -/
def exitStatus : Failure → UInt32
  | usage .help => 0
  | usage _ => 2
  | _ => 1

end Failure

/-- How a run ends. -/
structure Outcome where
  output : String := ""
  failure : Option Failure := none
  deriving Inhabited

def Outcome.exitStatus (outcome : Outcome) : UInt32 :=
  (outcome.failure.map Failure.exitStatus).getD 0

/-- The outcome of work that may fail and has a text to print. -/
def Outcome.ofExcept : Except Failure String → Outcome
  | .ok output => { output }
  | .error failure => { failure := some failure }

variable {m : Type → Type} [Monad m]

/-! ## Packages -/

/-- The valid package that the file at a path describes. -/
def loadValid (disk : Disk m) (path : String) : m (Except Failure Package) := do
  match ← Generation.load disk path with
  | .error reason => pure (.error (.load path reason))
  | .ok package =>
    match Generation.validate package with
    | .error reason => pure (.error (.check path reason))
    | .ok () => pure (.ok package)

/-- The valid packages that files describe, up to the first that fails. -/
def loadAllValid (disk : Disk m) : List String → m (Except Failure (List Package))
  | [] => pure (.ok [])
  | path :: rest => do
    match ← loadValid disk path with
    | .error failure => pure (.error failure)
    | .ok package =>
      match ← loadAllValid disk rest with
      | .error failure => pure (.error failure)
      | .ok packages => pure (.ok (package :: packages))

/-! ## Commands -/

/-- The configuration for a preset and for an indentation that is to replace its own. -/
def configure (preset : String) (indent : Option UInt64) : Except Failure Config :=
  match Config.preset? preset with
  | none => .error (.unknownPreset preset)
  | some config => .ok { config with indentWidth := indent.getD config.indentWidth }

/-- Generates the sources of packages. No file is read under an unknown preset. -/
def generate (disk : Disk m) (files : List String) (output preset : String)
    (indent : Option UInt64) : m (Except Failure String) :=
  match configure preset indent with
  | .error failure => pure (.error failure)
  | .ok config => do
    match ← loadAllValid disk files with
    | .error failure => pure (.error failure)
    | .ok packages =>
      match ← Generation.emit disk config output packages with
      | .error reason => pure (.error (.generate output reason))
      | .ok () => pure (.ok "")

def verdict (package : Package) : String :=
  package.ident.text ++ ": ok (" ++ toString package.methods.length ++ " methods)\n"

def execute (disk : Disk m) : Command → m (Except Failure String)
  | .generate files output preset indent => generate disk files output preset indent
  | .check file => do
    let package ← loadValid disk file
    pure (package.map verdict)
  | .show file => do
    match ← loadValid disk file with
    | .error failure => pure (.error failure)
    | .ok package => pure ((Outline.ofPackage package).mapError .print)

def run (disk : Disk m) (arguments : List String) : m Outcome :=
  match Usage.parse arguments with
  | .error reason => pure (Outcome.ofExcept (.error (.usage reason)))
  | .ok command => do
    let result ← execute disk command
    pure (Outcome.ofExcept result)

end OperatorGen.CommandLine
