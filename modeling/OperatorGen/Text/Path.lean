/-!
# Paths

A path is a text with slashes. Joining puts a second path behind a first, unless the second
begins at the root. `steps` are the names to follow: empty names and single points lead
nowhere and are left out, and two points lead back. They count for the length of a path,
though, so the paths of the directories on the way (`reversedParent`) keep them.
-/
namespace OperatorGen.Path

/-- The path of a second path that starts at the first. -/
def join (first second : String) : String :=
  if second.startsWith "/" then second
  else if first.isEmpty || first.endsWith "/" then first ++ second
  else first ++ "/" ++ second

/-- Whether a path begins at the root. -/
def isAbsolute (path : String) : Bool :=
  path.startsWith "/"

/-- Characters split at slashes; there is always a first piece. -/
def splitChars : List Char → List (List Char)
  | [] => [[]]
  | c :: rest =>
    if c = '/' then [] :: splitChars rest
    else
      match splitChars rest with
      | [] => [[c]]
      | piece :: others => (c :: piece) :: others

/-- The pieces of a path between its slashes. -/
def pieces (path : String) : List String :=
  (splitChars path.toList).map String.ofList

/-- Whether a piece of a path leads anywhere. -/
def isStep (piece : String) : Bool :=
  piece ≠ "" ∧ piece ≠ "."

/-- The names that a path leads through. -/
def steps (path : String) : List String :=
  (pieces path).filter isStep

/-- The path of pieces in reverse order. -/
def ofReversed (pieces : List String) : String :=
  "/".intercalate pieces.reverse

/-- What stands before the last name of a path, as pieces in reverse order. -/
def reversedParent (path : String) : List String :=
  ((pieces path).reverse.dropWhile fun piece => !isStep piece).tail

/-- Whether the last name of a path must be a directory: a slash or a point follows it. -/
def wantsDirectory (path : String) : Bool :=
  match (splitChars path.toList).getLast? with
  | some last => last.isEmpty || last == ['.']
  | none => false

end OperatorGen.Path
