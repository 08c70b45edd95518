import OperatorGen.Proofs.CommandLine.FileTree
import OperatorGen.Proofs.Walk

/-!
# What an outline shows

The outline of a package has one entry for each element, in the order of a walk
(`shown_outline`). How far an entry is indented is told by the kind of its element alone
(`level`), although the printer has to remember it: an argument is printed at the depth that was
left behind. It is the depth that the option set, because arguments and compounds do not change
it (`foldl_arguments`), and whatever holds others sets the depth before it is printed, so nothing
that was printed before matters (`Prints`).
-/
namespace OperatorGen.Outline

/-! ## Entries -/

/-- How deep an element lies in a package. -/
def level : Element → Nat
  | .package _ => 0
  | .method _ => 1
  | .option _ => 2
  | .node _ => 3
  | .compound _ => 3

/-- What stands behind the name of an element: the version of a package, the target of a ref
    input, the value of a constant, and how many values an enum parameter can have. -/
def detail : Element → String
  | .package p => " " ++ versionText p.version
  | .node (.refInput _ target) => " -> " ++ target.text
  | .node (.constant c) => " = " ++ c.value
  | .node (.enumeration e) => " (" ++ toString e.descriptions.length ++ " values)"
  | _ => ""

/-- The entry of an element: two spaces for each level, its kind and its name. -/
def entry (element : Element) : String :=
  String.ofList (List.replicate (2 * level element) ' ') ++ element.kind.label ++ " " ++
    (element.name ++ detail element) ++ "\n"

/-- The entries of elements in order. -/
def entries (events : List Element) : String :=
  String.join (events.map entry)

theorem entries_append (first second : List Element) :
    entries (first ++ second) = entries first ++ entries second := by
  rw [entries, List.map_append, String.join_append, ← entries, ← entries]

theorem entries_cons (element : Element) (rest : List Element) :
    entries (element :: rest) = entry element ++ entries rest := by
  rw [entries, List.map_cons, String.join_cons, ← entries]

theorem elementText_eq (element : Element) :
    elementText element = element.name ++ detail element := by
  cases element with
  | node n => cases n <;> simp [elementText, nodeText, Element.name, detail, Node.ident,
      String.append_assoc]
  | _ => simp [elementText, Element.name, detail, String.append_assoc]

/-- A line at the level of its element is the entry of the element. -/
theorem line_level (element : Element) : line (level element) element = entry element := by
  rw [line, elementText_eq, entry]

/-! ## Printing -/

/-- The outline after an element. -/
def printed (before : Outline) (element : Element) : Outline where
  text := before.text ++ line (depthOf before.depth element) element
  depth := depthAfter before.depth element

/-- A walk that never stops goes through all elements. -/
theorem upTo_never (events : List Element) : Walk.upTo (fun _ => false) events = events := by
  induction events with
  | nil => rfl
  | cons element rest ih =>
    rw [Walk.upTo_cons, ih]
    rfl

/-- The printer never fails, so it prints all elements of a walk. -/
theorem run_walk (start : Walk.Start) (before : Outline) :
    (start.walk visit).run.run before = (.ok (), start.events.foldl printed before) := by
  have never : (fun _ : Element => (none : Option Unhandled).isSome) = fun _ => false := rfl
  have faultless : start.events.findSome? (fun _ => (none : Option Unhandled)) = none :=
    List.findSome?_eq_none_iff.mpr fun _ _ => rfl
  have visits (element : Element) (state : Outline) : (visit element).run.run state =
      ((none : Option Unhandled).elim (.ok ()) .error, printed state element) := rfl
  rw [Walk.walk_eq_visitAll, Walk.run_visitAll visits, never, upTo_never, faultless]
  rfl

/-- Elements whose entries are printed at any depth. -/
def Prints (events : List Element) : Prop :=
  ∀ before : Outline, ∃ depth,
    events.foldl printed before = ⟨before.text ++ entries events, depth⟩

namespace Prints

theorem nil : Prints [] := fun before => ⟨before.depth, by simp [entries]⟩

theorem append {first second : List Element} (front : Prints first) (back : Prints second) :
    Prints (first ++ second) := by
  intro before
  obtain ⟨between, printedFront⟩ := front before
  obtain ⟨depth, printedBack⟩ := back ⟨before.text ++ entries first, between⟩
  refine ⟨depth, ?_⟩
  rw [List.foldl_append, printedFront, printedBack, entries_append, String.append_assoc]

theorem flatMap {α : Type} {list : List α} {eventsOf : α → List Element}
    (each : ∀ x, Prints (eventsOf x)) : Prints (list.flatMap eventsOf) := by
  induction list with
  | nil => exact nil
  | cons x rest ih =>
    rw [List.flatMap_cons]
    exact (each x).append ih

/-- What sets the depth itself is printed at any depth. -/
theorem single {element : Element} (sets : ∀ depth, depthOf depth element = level element) :
    Prints [element] := by
  intro before
  refine ⟨depthAfter before.depth element, ?_⟩
  rw [List.foldl_cons, List.foldl_nil, printed, sets, line_level, entries_cons]
  simp [entries]

end Prints

/-- Arguments and compounds are printed at the depth of the arguments, and leave it. -/
theorem foldl_arguments {events : List Element} (inside : ∀ element ∈ events, level element = 3)
    (text : String) : events.foldl printed ⟨text, 3⟩ = ⟨text ++ entries events, 3⟩ := by
  induction events generalizing text with
  | nil => simp [entries]
  | cons element rest ih =>
    obtain ⟨here, later⟩ := List.forall_mem_cons.mp inside
    have same : printed ⟨text, 3⟩ element = ⟨text ++ entry element, 3⟩ := by
      cases element with
      | node n => rw [← line_level]; rfl
      | compound c => rw [← line_level]; rfl
      | _ => cases here
    rw [List.foldl_cons, same, ih later, entries_cons, String.append_assoc]

theorem level_of_mem_preorder {item : Item} :
    ∀ element ∈ item.preorder, level element = 3 := by
  cases item with
  | node n => simp [Item.preorder, level]
  | compound c => simp [Item.preorder, level]

/-- An option sets the depth for its arguments. -/
theorem prints_option (o : MethodOption) : Prints o.preorder := by
  intro before
  have inside : ∀ element ∈ o.items.flatMap Item.preorder, level element = 3 := by
    rw [List.forall_mem_flatMap]
    exact fun _ _ => level_of_mem_preorder
  have own : printed before (.option o) = ⟨before.text ++ entry (.option o), 3⟩ := by
    rw [← line_level]
    rfl
  refine ⟨3, ?_⟩
  rw [MethodOption.preorder, List.foldl_cons, own, foldl_arguments inside, entries_cons,
    String.append_assoc]

theorem prints_method (f : Method) : Prints f.preorder :=
  (Prints.single fun _ => rfl).append (.flatMap prints_option)

theorem prints_package (p : Package) : Prints p.preorder :=
  (Prints.single fun _ => rfl).append (.flatMap prints_method)

/-- The printer never fails. Behind what it has printed, a walk over a package, a method or an
    option puts the entries of the elements in order, whatever depth has been left to it. So the
    program shows a package by its entries, and it fails only for a file that does not load. -/
theorem shown_outline :
    (∀ (start : Walk.Start) (before : Outline), (∀ i, start ≠ .item i) →
      ∃ depth, (start.walk visit).run.run before =
        (.ok (), ⟨before.text ++ entries start.events, depth⟩)) ∧
    (∀ (p : Package) (before : Outline), (package p before).1 = .ok () ∧
      (package p before).2.text = before.text ++ entries p.preorder) ∧
    ∀ (tree : FileTree) (file : String),
      (CommandLine.execute FileTree.disk (.show file)).run tree =
        ((CommandLine.loadedAt tree file).map fun p => entries p.preorder, tree) := by
  have walks : ∀ (start : Walk.Start) (before : Outline), (∀ i, start ≠ .item i) →
      ∃ depth, (start.walk visit).run.run before =
        (.ok (), ⟨before.text ++ entries start.events, depth⟩) := by
    intro start before holds
    have prints : Prints start.events := by
      cases start with
      | package p => exact prints_package p
      | method f => exact prints_method f
      | option o => exact prints_option o
      | item i => exact absurd rfl (holds i)
    obtain ⟨depth, outcome⟩ := prints before
    exact ⟨depth, by rw [run_walk, outcome]⟩
  have packages (p : Package) (before : Outline) : ∃ depth,
      package p before = (.ok (), ⟨before.text ++ entries p.preorder, depth⟩) :=
    walks (.package p) before fun _ => Walk.Start.noConfusion
  refine ⟨walks, fun p before => ?_, fun tree file => ?_⟩
  · obtain ⟨depth, outcome⟩ := packages p before
    rw [outcome]
    exact ⟨rfl, rfl⟩
  · have shown (p : Package) : ofPackage p = .ok (entries p.preorder) := by
      obtain ⟨depth, outcome⟩ := packages p {}
      rw [ofPackage, outcome]
      simp
    rw [CommandLine.execute, FileTree.run_bind (CommandLine.loadValid_run tree file)]
    cases CommandLine.loadedAt tree file with
    | error failure => rfl
    | ok p =>
      simp only [shown]
      rfl

/-- A method with an option that ends in a compound. -/
def resizeMethod : Method where
  ident := ⟨"resize"⟩
  options := [
    { ident := ⟨"manual"⟩
      items := [
        .node (.refInput { ident := ⟨"dst"⟩ } ⟨"src"⟩),
        .compound ⟨.size, [.parameter { argument := { ident := ⟨"w"⟩ } },
          .constant ⟨⟨"h"⟩, "int", "3"⟩]⟩] }]

def resizePackage : Package where
  ident := ⟨"vision"⟩
  version := ⟨1, 2, 0⟩
  methods := [resizeMethod, { ident := ⟨"blur"⟩ }]

/-- Behind another outline, and whatever depth that has left, the package is outlined from its own
    beginning, and so is the method alone. -/
theorem resizePackage_shown :
    (package resizePackage ⟨"method warp\n", 3⟩).1 = .ok () ∧
      (package resizePackage ⟨"method warp\n", 3⟩).2.text =
        "method warp\npackage vision 1.2.0\n  method resize\n    option manual\n" ++
        "      ref-input dst -> src\n      compound size(w, h)\n      parameter w\n" ++
        "      constant h = 3\n  method blur\n" ∧
      ∃ depth, (Walk.method visit resizeMethod).run.run ⟨"", 7⟩ = (.ok (),
        ⟨"  method resize\n    option manual\n      ref-input dst -> src\n" ++
          "      compound size(w, h)\n      parameter w\n      constant h = 3\n", depth⟩) := by
  obtain ⟨walks, packages, -⟩ := shown_outline
  obtain ⟨passes, text⟩ := packages resizePackage ⟨"method warp\n", 3⟩
  obtain ⟨depth, outcome⟩ := walks (.method resizeMethod) ⟨"", 7⟩ fun _ => Walk.Start.noConfusion
  refine ⟨passes, ?_, depth, outcome.trans ?_⟩
  · rw [text]
    decide +kernel
  · have same : entries resizeMethod.preorder =
        "  method resize\n    option manual\n      ref-input dst -> src\n" ++
          "      compound size(w, h)\n      parameter w\n      constant h = 3\n" := by
      decide +kernel
    rw [Walk.Start.events, same, String.empty_append]

end OperatorGen.Outline
