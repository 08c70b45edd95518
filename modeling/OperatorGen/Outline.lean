import OperatorGen.Walk

/-!
# Outlines

The outline of a package is one line for each element in the order of a walk, indented by
its depth: the package, then methods, options and their arguments, each one step deeper
than what holds it. The printer remembers the depth between visits; a container sets it,
so what an earlier walk left does not matter. It is a visitor that may fail as any other.
-/
namespace OperatorGen

/-- The lines printed so far, and the depth of the next argument. -/
structure Outline where
  text : String := ""
  depth : Nat := 0
  deriving DecidableEq, Repr, Inhabited

namespace Outline

def versionText (version : Version) : String :=
  toString version.major.toNat ++ "." ++ toString version.minor.toNat ++ "." ++
    toString version.patch.toNat

/-- What the outline says of a node beside its kind. -/
def nodeText : Node → String
  | .refInput argument target => argument.ident.text ++ " -> " ++ target.text
  | .constant c => c.ident.text ++ " = " ++ c.value
  | .enumeration e =>
    e.parameter.argument.ident.text ++ " (" ++ toString e.descriptions.length ++ " values)"
  | node => node.ident.text

/-- What the outline says of an element beside its kind. -/
def elementText : Element → String
  | .package p => p.ident.text ++ " " ++ versionText p.version
  | .node n => nodeText n
  | element => element.name

/-- A line of the outline. -/
def line (depth : Nat) (element : Element) : String :=
  String.ofList (List.replicate (2 * depth) ' ') ++ element.kind.label ++ " " ++
    elementText element ++ "\n"

/-- The depth at which an element stands, given the depth of the next argument. -/
def depthOf (depth : Nat) : Element → Nat
  | .package _ => 0
  | .method _ => 1
  | .option _ => 2
  | _ => depth

/-- The depth of the next argument after an element. -/
def depthAfter (depth : Nat) : Element → Nat
  | .option _ => 3
  | element => depthOf depth element

def visit (element : Element) : ExceptT Unhandled (StateM Outline) Unit :=
  modify fun outline =>
    { text := outline.text ++ line (depthOf outline.depth element) element
      depth := depthAfter outline.depth element }

/-- Prints what a package holds behind an outline, up to a visit that fails. -/
def package (p : Package) (before : Outline) : Except Unhandled Unit × Outline :=
  (Walk.package visit p).run.run before

def ofPackage (p : Package) : Except Unhandled String :=
  match package p {} with
  | (.ok (), outline) => .ok outline.text
  | (.error failure, _) => .error failure

end Outline
end OperatorGen
