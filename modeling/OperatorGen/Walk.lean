import OperatorGen.Definition.Package

/-!
# Walks

A walk visits the elements of a definition in order: a package before its methods, a method
before its options, an option before its items, and a compound before its constituents. It
stops at the first visit that fails. The visitor is a function on elements in any monad, so
what it remembers and how it fails is up to it. A recorder (`record`) handles some kinds of
elements only: packages, methods and options of other kinds are passed by, and any other
element that it does not handle is a failure.
-/
namespace OperatorGen

/-- The kinds of elements of a definition. -/
inductive Kind where
  | package
  | method
  | option
  | input
  | output
  | refInput
  | allocation
  | constant
  | parameter
  | numericParameter
  | enumParameter
  | compound
  deriving DecidableEq, Repr, Inhabited

namespace Kind

def label : Kind → String
  | package => "package"
  | method => "method"
  | option => "option"
  | input => "input"
  | output => "output"
  | refInput => "ref-input"
  | allocation => "allocation"
  | constant => "constant"
  | parameter => "parameter"
  | numericParameter => "numeric-parameter"
  | enumParameter => "enum-parameter"
  | compound => "compound"

/-- The kinds that hold others: a visitor may pass them by. -/
def isContainer : Kind → Bool
  | package | method | option => true
  | _ => false

end Kind

def Node.kind : Node → Kind
  | input _ _ => .input
  | output _ => .output
  | refInput _ _ => .refInput
  | allocation _ => .allocation
  | constant _ => .constant
  | parameter _ => .parameter
  | numeric _ => .numericParameter
  | enumeration _ => .enumParameter

/-- An element of a definition. -/
inductive Element where
  | package (p : Package)
  | method (m : Method)
  | option (o : MethodOption)
  | node (n : Node)
  | compound (c : Compound)
  deriving Inhabited

namespace Element

def kind : Element → Kind
  | package _ => .package
  | method _ => .method
  | option _ => .option
  | node n => n.kind
  | compound _ => .compound

/-- The spelling of an element, which for a compound is its label. -/
def name : Element → String
  | package p => p.ident.text
  | method m => m.ident.text
  | option o => o.ident.text
  | node n => n.ident.text
  | compound c => c.label

end Element

def Item.element : Item → Element
  | node n => .node n
  | compound c => .compound c

namespace Walk

variable {m : Type → Type} [Monad m]

def visitAll (visit : Element → m Unit) : List Element → m Unit
  | [] => pure ()
  | element :: rest => do
    visit element
    visitAll visit rest

/-- Visits an item, but not the constituents of a compound. -/
def item (visit : Element → m Unit) (i : Item) : m Unit :=
  visit i.element

/-- Visits items in order, a compound before its constituents. -/
def items (visit : Element → m Unit) : List Item → m Unit
  | [] => pure ()
  | .node n :: rest => do
    visit (.node n)
    items visit rest
  | .compound c :: rest => do
    visit (.compound c)
    visitAll visit (c.arguments.map .node)
    items visit rest

/-- Visits an option and then its items. -/
def option (visit : Element → m Unit) (o : MethodOption) : m Unit := do
  visit (.option o)
  items visit o.items

def options (visit : Element → m Unit) : List MethodOption → m Unit
  | [] => pure ()
  | o :: rest => do
    option visit o
    options visit rest

/-- Visits a method and then its options. -/
def method (visit : Element → m Unit) (f : Method) : m Unit := do
  visit (.method f)
  options visit f.options

def methods (visit : Element → m Unit) : List Method → m Unit
  | [] => pure ()
  | f :: rest => do
    method visit f
    methods visit rest

/-- Visits a package and then its methods. -/
def package (visit : Element → m Unit) (p : Package) : m Unit := do
  visit (.package p)
  methods visit p.methods

end Walk

/-! ## Recorders -/

/-- A visited element: its kind and its name. -/
structure Call where
  kind : Kind
  name : String
  deriving DecidableEq, Repr, Inhabited

/-- An element that a visitor had to handle and did not. -/
structure Unhandled where
  kind : Kind
  name : String
  deriving DecidableEq, Repr, Inhabited

namespace Unhandled

def message (unhandled : Unhandled) : String :=
  "visitor has no handler for " ++ unhandled.kind.label ++ " node `" ++ unhandled.name ++ "`"

end Unhandled

namespace Walk

/-- Remembers the calls so far, and may fail. -/
abbrev Recorder (α : Type) : Type :=
  ExceptT Unhandled (StateM (List Call)) α

/-- Handles an element if its kind is among those handled. -/
def record (handled : List Kind) (element : Element) : Recorder Unit :=
  if element.kind ∈ handled then
    modify fun calls => calls ++ [⟨element.kind, element.name⟩]
  else if element.kind.isContainer then pure ()
  else throw ⟨element.kind, element.name⟩

/-- The calls of a walk, and the failure that it stopped at. -/
def run (walk : Recorder Unit) : List Call × Option Unhandled :=
  match StateT.run (ExceptT.run walk) [] with
  | (.ok (), calls) => (calls, none)
  | (.error failure, calls) => (calls, some failure)

end Walk
end OperatorGen
