import OperatorGen.CommandLine.Run

/-!
# The program

The command line on the files of the machine. All that is decided is decided by
`CommandLine.run`; here files are read and written, and the outcome is printed.
-/
namespace OperatorGen.Machine

/-- The error of the system behind an error of input and output. -/
def systemError : IO.Error → SystemError
  | .noFileOrDirectory _ _ _ => .notFound
  | .alreadyExists _ _ _ => .alreadyExists
  | .inappropriateType _ 20 _ => .notDirectory
  | .inappropriateType _ 21 _ => .isDirectory
  | .invalidArgument _ 36 _ => .nameTooLong
  | error => .other error.toString

/-- Carries out an operation on files. -/
def attempt {α : Type} (action : IO α) : IO (Except SystemError α) := do
  match ← action.toBaseIO with
  | .ok value => pure (.ok value)
  | .error reason => pure (.error (systemError reason))

def read (path : String) : IO (Except SystemError String) := do
  match ← attempt (IO.FS.readBinFile path) with
  | .error reason => pure (.error reason)
  | .ok bytes =>
    match String.fromUTF8? bytes with
    | some text => pure (.ok text)
    | none => pure (.error .notUtf8)

/-- Whether there is a directory at a path, which is then the reason why no file can be read
    there. -/
def isDirectory (path : String) : IO Bool := do
  match ← attempt (IO.FS.readBinFile path) with
  | .error .isDirectory => pure true
  | _ => pure false

def ensureDirectory (path : String) : IO (Except SystemError Unit) := do
  match ← attempt (IO.FS.createDir path) with
  | .ok () => pure (.ok ())
  | .error reason =>
    if ← isDirectory path then pure (.ok ()) else pure (.error reason)

/-- Makes the directory whose path has these pieces in reverse order, with those on the way
    that are missing. -/
def makeReversed : (pieces : List String) → IO (Except SystemError Unit)
  | [] => pure (.ok ())
  | piece :: before => do
    if Path.isStep piece then
      let path := Path.ofReversed (piece :: before)
      match ← ensureDirectory path with
      | .error .notFound =>
        match ← makeReversed before with
        | .error reason => pure (.error reason)
        | .ok () => ensureDirectory path
      | result => pure result
    else makeReversed before

/-- Makes the directory for the file at a path, and all directories on the way. -/
def makeDirectories (path : String) : IO (Except SystemError Unit) :=
  makeReversed (Path.reversedParent path)

def write (path text : String) : IO (Except SystemError Unit) :=
  attempt (IO.FS.writeFile path text)

def disk : Disk IO :=
  { read, makeDirectories, write }

/-- Prints the outcome of a run and gives its exit status. -/
def report (outcome : CommandLine.Outcome) : IO UInt32 := do
  IO.print outcome.output
  match outcome.failure with
  | none => pure ()
  | some failure => IO.eprintln failure.message
  pure outcome.exitStatus

end OperatorGen.Machine

def main (arguments : List String) : IO UInt32 := do
  let outcome ← OperatorGen.CommandLine.run OperatorGen.Machine.disk arguments
  OperatorGen.Machine.report outcome
