import OperatorGen.Text.Path

/-!
# File trees

A file tree without links: what is at each place, a place being the names that lead to it
from the root. Its operations are those that a program asks of an operating system, with
the errors that the system answers (`read`, `makeDirectories`, `write`). A path is followed
name by name, and each name that is passed must be a directory.
-/
namespace OperatorGen

/-- Why the system refuses an operation on files. -/
inductive SystemError where
  | notFound
  | alreadyExists
  | notDirectory
  | isDirectory
  | nameTooLong
  | notUtf8
  | nulByte
  /-- An error that only a real system has, in its words. -/
  | other (message : String)
  deriving DecidableEq, Repr, Inhabited

def SystemError.message : SystemError → String
  | notFound => "No such file or directory (os error 2)"
  | alreadyExists => "File exists (os error 17)"
  | notDirectory => "Not a directory (os error 20)"
  | isDirectory => "Is a directory (os error 21)"
  | nameTooLong => "File name too long (os error 36)"
  | notUtf8 => "stream did not contain valid UTF-8"
  | nulByte => "file name contained an unexpected NUL byte"
  | other message => message

/-- What is in a file: a text, or bytes that are none. -/
inductive Contents where
  | text (value : String)
  | binary (bytes : List UInt8)
  deriving DecidableEq, Repr, Inhabited

/-- The contents that bytes are. -/
def Contents.ofBytes (bytes : List UInt8) : Contents :=
  match String.fromUTF8? ⟨bytes.toArray⟩ with
  | some value => .text value
  | none => .binary bytes

inductive Entry where
  | file (contents : Contents)
  | directory
  deriving DecidableEq, Repr, Inhabited

/-- The places that hold something, and the place where relative paths begin. The root is
    always a directory. -/
structure FileTree where
  entries : List (List String × Entry)
  workingDirectory : List String
  deriving Repr, Inhabited

namespace FileTree

/-! ## Places -/

def at? (tree : FileTree) (place : List String) : Option Entry :=
  if place.isEmpty then some .directory
  else (tree.entries.find? fun entry => entry.1 = place).map Prod.snd

def put (tree : FileTree) (place : List String) (entry : Entry) : FileTree :=
  { tree with entries := (place, entry) :: tree.entries.filter fun old => old.1 ≠ place }

/-- The longest name that a directory can hold, in bytes. -/
def nameLimit : Nat := 255

/-- Paths of this many bytes are too long. -/
def pathLimit : Nat := 4096

/-- What the system requires of the text of a path. -/
def checkPath (path : String) : Except SystemError Unit :=
  if path.toList.contains '\x00' then .error .nulByte
  else if path.isEmpty then .error .notFound
  else if pathLimit ≤ path.utf8ByteSize then .error .nameTooLong
  else .ok ()

/-- The place that names lead to from another place. The last name may lead to a place that
    holds nothing. -/
def follow (tree : FileTree) (place : List String) :
    List String → Except SystemError (List String)
  | [] => .ok place
  | name :: rest =>
    match tree.at? place with
    | none => .error .notFound
    | some (.file _) => .error .notDirectory
    | some .directory =>
      if name = ".." then tree.follow place.dropLast rest
      else if nameLimit < name.utf8ByteSize then .error .nameTooLong
      else tree.follow (place ++ [name]) rest

def start (tree : FileTree) (path : String) : List String :=
  if Path.isAbsolute path then [] else tree.workingDirectory

def resolve (tree : FileTree) (path : String) : Except SystemError (List String) := do
  checkPath path
  tree.follow (tree.start path) (Path.steps path)

/-! ## Operations -/

def read (tree : FileTree) (path : String) : Except SystemError String := do
  let place ← tree.resolve path
  match tree.at? place with
  | none => .error .notFound
  | some .directory => .error .isDirectory
  | some (.file contents) =>
    if Path.wantsDirectory path then .error .notDirectory
    else
      match contents with
      | .text value => .ok value
      | .binary _ => .error .notUtf8

/-- Puts a text into the file at a path; the directory of the file must be there. -/
def write (tree : FileTree) (path text : String) : Except SystemError FileTree := do
  let place ← tree.resolve path
  match tree.at? place with
  | some .directory => .error .isDirectory
  | _ => .ok (tree.put place (.file (.text text)))

def makeDirectory (tree : FileTree) (path : String) : Except SystemError FileTree := do
  let place ← tree.resolve path
  match tree.at? place with
  | some _ => .error .alreadyExists
  | none => .ok (tree.put place .directory)

def isDirectory (tree : FileTree) (path : String) : Bool :=
  match tree.resolve path with
  | .ok place => tree.at? place = some .directory
  | .error _ => false

/-- Makes a directory unless it is there. An error is none if there is a directory in the
    end. -/
def ensureDirectory (tree : FileTree) (path : String) : FileTree × Except SystemError Unit :=
  match tree.makeDirectory path with
  | .ok changed => (changed, .ok ())
  | .error reason => if tree.isDirectory path then (tree, .ok ()) else (tree, .error reason)

/-- Makes the directory whose path has these pieces in reverse order. If a directory on the
    way is missing, it is made first; what has been made stays, even if an error follows. -/
def makeReversed (tree : FileTree) : (pieces : List String) → FileTree × Except SystemError Unit
  | [] => (tree, .ok ())
  | piece :: before =>
    if Path.isStep piece then
      let path := Path.ofReversed (piece :: before)
      match tree.makeDirectory path with
      | .error .notFound =>
        match tree.makeReversed before with
        | (changed, .error reason) => (changed, .error reason)
        | (changed, .ok ()) => changed.ensureDirectory path
      | _ => tree.ensureDirectory path
    else tree.makeReversed before

/-- Makes the directory for the file at a path, and all directories on the way. -/
def makeDirectories (tree : FileTree) (path : String) : FileTree × Except SystemError Unit :=
  tree.makeReversed (Path.reversedParent path)

end FileTree
end OperatorGen
