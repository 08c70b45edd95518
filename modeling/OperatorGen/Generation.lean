import OperatorGen.Definition.Reading
import OperatorGen.Emission.File
import OperatorGen.Error

/-!
# Generation

From definition files to source files. What is asked of a file system goes through a
`Disk`, in any monad: a file tree is one, and so are the files of the machine. A package is
loaded and must be valid. All files are rendered before the first is written, so an error
of rendering leaves the disk as it was; a disk that refuses a file stops the writing there.
-/
namespace OperatorGen

/-- The operations of a file system. -/
structure Disk (m : Type → Type) where
  /-- The text in the file at a path. -/
  read : String → m (Except SystemError String)
  /-- Makes the directory for the file at a path, and all directories on the way. -/
  makeDirectories : String → m (Except SystemError Unit)
  /-- Puts a text into the file at a path. -/
  write : String → String → m (Except SystemError Unit)

/-- A file tree as a disk. -/
def FileTree.disk : Disk (StateM FileTree) where
  read path := fun tree => (tree.read path, tree)
  makeDirectories path := fun tree =>
    let (changed, result) := tree.makeDirectories path
    (result, changed)
  write path text := fun tree =>
    match tree.write path text with
    | .ok changed => (.ok (), changed)
    | .error reason => (.error reason, tree)

namespace Generation

variable {m : Type → Type} [Monad m]

/-! ## Loading -/

/-- The package that a text describes, under the name of its file. -/
def parse (text file : String) : Except Error Package :=
  (Package.parse text).mapError (.parse file)

def load (disk : Disk m) (path : String) : m (Except Error Package) := do
  match ← disk.read path with
  | .error reason => pure (.error (.system reason))
  | .ok text => pure (parse text path)

def validate (package : Package) : Except Error Unit :=
  match Validation.problems package with
  | [] => .ok ()
  | problems => .error (.invalid problems)

/-! ## Writing -/

/-- Writes files in order into a directory, up to the first that the disk refuses. -/
def writeFiles (disk : Disk m) (output : String) :
    List Emission.File → m (Except Error Unit)
  | [] => pure (.ok ())
  | file :: rest => do
    let path := Path.join output file.path
    match ← disk.makeDirectories path with
    | .error reason => pure (.error (.system reason))
    | .ok () =>
      match ← disk.write path file.contents with
      | .error reason => pure (.error (.system reason))
      | .ok () => writeFiles disk output rest

/-- Renders packages and writes the files into a directory. -/
def emit (disk : Disk m) (config : Config) (output : String) (packages : List Package) :
    m (Except Error Unit) :=
  match Emission.renderPackages config packages with
  | .error reason => pure (.error (.emit reason))
  | .ok files => writeFiles disk output files

end Generation
end OperatorGen
