import OperatorGen.Walk

/-!
# Where a walk goes

The elements below a starting point have an order of their own (`Start.events`): what holds
others comes before what it holds, and the rest is in the order of the definition. Every
walk visits exactly these, in any monad (`walk_eq_visitAll`), and goes on until the first
visit that fails (`run_visitAll`). So a recorder has the calls of the elements before the
first one that it had to handle and did not, and it reports that one (`run_record`).
-/
namespace OperatorGen

/-! ## The order of elements -/

/-- An item before the constituents of a compound. -/
def Item.preorder : Item → List Element
  | node n => [.node n]
  | compound c => .compound c :: c.arguments.map .node

/-- An option before its items. -/
def MethodOption.preorder (option : MethodOption) : List Element :=
  .option option :: option.items.flatMap Item.preorder

/-- A method before its options. -/
def Method.preorder (method : Method) : List Element :=
  .method method :: method.options.flatMap MethodOption.preorder

/-- A package before its methods. -/
def Package.preorder (package : Package) : List Element :=
  .package package :: package.methods.flatMap Method.preorder

/-- The node that an element is, if it is one. -/
def Element.node? : Element → Option Node
  | node n => some n
  | _ => none

/-- How an element is remembered when it is handled. -/
def Element.call (element : Element) : Call := ⟨element.kind, element.name⟩

/-- How an element is reported when it should have been handled. -/
def Element.unhandled (element : Element) : Unhandled := ⟨element.kind, element.name⟩

namespace Walk

/-- Where a walk begins. -/
inductive Start where
  | package (p : Package)
  | method (f : Method)
  | option (o : MethodOption)
  | item (i : Item)

namespace Start

/-- The walk from a starting point. -/
def walk {m : Type → Type} [Monad m] (visit : Element → m Unit) : Start → m Unit
  | package p => Walk.package visit p
  | method f => Walk.method visit f
  | option o => Walk.option visit o
  | item i => Walk.item visit i

/-- The elements below a starting point, in order. A single item is itself only. -/
def events : Start → List Element
  | package p => p.preorder
  | method f => f.preorder
  | option o => o.preorder
  | item i => [i.element]

end Start

/-! ## Every walk visits the elements in order -/

section Order

variable {m : Type → Type} [Monad m] [LawfulMonad m] (visit : Element → m Unit)

theorem visitAll_append (first second : List Element) :
    visitAll visit (first ++ second) =
      visitAll visit first >>= fun _ => visitAll visit second := by
  induction first with
  | nil => simp [visitAll]
  | cons element rest ih => simp [visitAll, ih]

theorem items_eq (list : List Item) :
    items visit list = visitAll visit (list.flatMap Item.preorder) := by
  induction list with
  | nil => rfl
  | cons item rest ih =>
    cases item with
    | node n => simp [items, ih, Item.preorder, visitAll]
    | compound c => simp [items, ih, Item.preorder, visitAll, visitAll_append]

theorem option_eq (o : MethodOption) : option visit o = visitAll visit o.preorder := by
  rw [option, items_eq]
  rfl

theorem options_eq (list : List MethodOption) :
    options visit list = visitAll visit (list.flatMap MethodOption.preorder) := by
  induction list with
  | nil => rfl
  | cons o rest ih => simp [options, option_eq, ih, visitAll_append]

theorem method_eq (f : Method) : method visit f = visitAll visit f.preorder := by
  rw [method, options_eq]
  rfl

theorem methods_eq (list : List Method) :
    methods visit list = visitAll visit (list.flatMap Method.preorder) := by
  induction list with
  | nil => rfl
  | cons f rest ih => simp [methods, method_eq, ih, visitAll_append]

theorem package_eq (p : Package) : package visit p = visitAll visit p.preorder := by
  rw [package, methods_eq]
  rfl

theorem walk_eq_visitAll (start : Start) : start.walk visit = visitAll visit start.events := by
  cases start with
  | package p => exact package_eq visit p
  | method f => exact method_eq visit f
  | option o => exact option_eq visit o
  | item i => simp [Start.walk, Start.events, item, visitAll]

end Order

/-! ## A walk stops at the first failure -/

/-- The elements up to the first one at which a walk stops, that one included. -/
def upTo (stops : Element → Bool) (events : List Element) : List Element :=
  events.takeWhile (fun element => !stops element) ++ (events.find? stops).toList

theorem upTo_cons (stops : Element → Bool) (element : Element) (rest : List Element) :
    upTo stops (element :: rest) =
      element :: if stops element then [] else upTo stops rest := by
  cases stopped : stops element <;> simp [upTo, stopped]

section Failing

variable {ε σ : Type} {visit : Element → ExceptT ε (StateM σ) Unit}
  {fault? : Element → Option ε} {after : σ → Element → σ}

/-- A visitor that fails at some elements, whatever its state is, leaves the state that the
    elements up to the first of those lead to, and fails as it fails there. -/
theorem run_visitAll
    (visits : ∀ element state, (visit element).run.run state =
      ((fault? element).elim (.ok ()) .error, after state element))
    (events : List Element) (state : σ) :
    (visitAll visit events).run.run state =
      ((events.findSome? fault?).elim (.ok ()) .error,
        (upTo (fun element => (fault? element).isSome) events).foldl after state) := by
  induction events generalizing state with
  | nil => rfl
  | cons element rest ih =>
    have first := visits element state
    simp only [visitAll, ExceptT.run_bind, StateT.run_bind, first, upTo_cons]
    cases fault : fault? element with
    | some reason =>
      simp only [List.findSome?_cons, fault, Option.elim]
      rfl
    | none =>
      simp only [List.findSome?_cons, fault, Option.elim]
      exact ih (after state element)

end Failing

/-! ## What a visitor that never fails comes to -/

/-- Notes an element. -/
def note (element : Element) : StateM (List Element) Unit :=
  modify fun seen => seen ++ [element]

/-- The elements that a walk comes to. -/
def seen (walk : StateM (List Element) Unit) : List Element :=
  (walk.run []).2

theorem run_note (events earlier : List Element) :
    ((visitAll note events).run earlier).2 = earlier ++ events := by
  induction events generalizing earlier with
  | nil => exact (List.append_nil earlier).symm
  | cons element rest ih =>
    calc ((visitAll note (element :: rest)).run earlier).2
        = ((visitAll note rest).run (earlier ++ [element])).2 := rfl
      _ = earlier ++ element :: rest := by simp [ih]

theorem seen_walk (start : Start) : seen (start.walk note) = start.events := by
  rw [seen, walk_eq_visitAll, run_note, List.nil_append]

/-- The nodes among the elements of an option are its arguments. -/
theorem filterMap_preorder (o : MethodOption) :
    o.preorder.filterMap Element.node? = o.arguments := by
  have ofNodes (nodes : List Node) : (nodes.map Element.node).filterMap Element.node? = nodes := by
    simp [List.filterMap_map, Function.comp_def, Element.node?]
  have ofItem (i : Item) : i.preorder.filterMap Element.node? = i.arguments := by
    cases i with
    | node n => rfl
    | compound c => exact ofNodes c.arguments
  calc o.preorder.filterMap Element.node?
      = (o.items.flatMap Item.preorder).filterMap Element.node? := rfl
    _ = o.arguments := by simp [List.filterMap_flatMap, ofItem, MethodOption.arguments]

/-! ## Recorders -/

/-- A recorder stops at an argument or a compound that it does not handle. -/
def stops (handled : List Kind) (element : Element) : Bool :=
  !element.kind.isContainer && decide (element.kind ∉ handled)

/-- The failure of a recorder at an element. -/
def fault? (handled : List Kind) (element : Element) : Option Unhandled :=
  if stops handled element then some element.unhandled else none

/-- The calls of a recorder after an element. -/
def recorded (handled : List Kind) (calls : List Call) (element : Element) : List Call :=
  if element.kind ∈ handled then calls ++ [element.call] else calls

theorem run_record_element (handled : List Kind) (element : Element) (calls : List Call) :
    (record handled element).run.run calls =
      ((fault? handled element).elim (.ok ()) .error, recorded handled calls element) := by
  unfold record fault? stops recorded
  by_cases isHandled : element.kind ∈ handled
  · simp only [isHandled, if_true, not_true, decide_false, Bool.and_false]
    rfl
  · cases isContainer : element.kind.isContainer <;>
      simp only [isHandled, if_false, not_false_iff, decide_true, Bool.and_true] <;>
      rfl

theorem findSome?_fault (handled : List Kind) (events : List Element) :
    events.findSome? (fault? handled) =
      (events.find? (stops handled)).map Element.unhandled := by
  induction events with
  | nil => rfl
  | cons element rest ih =>
    cases stopped : stops handled element <;>
      simp [fault?, stopped, ih]

theorem foldl_recorded (handled : List Kind) (events : List Element) (calls : List Call) :
    events.foldl (recorded handled) calls =
      calls ++ (events.filter fun element => element.kind ∈ handled).map Element.call := by
  induction events generalizing calls with
  | nil => simp
  | cons element rest ih =>
    by_cases isHandled : element.kind ∈ handled <;>
      simp [ih, recorded, isHandled]

/-- A recorder has a failure wherever it stops. -/
theorem isSome_fault (handled : List Kind) :
    (fun element => (fault? handled element).isSome) = stops handled := by
  funext element
  cases stopped : stops handled element <;> simp [fault?, stopped]

/-- The element at which a recorder stops is not among its calls. -/
theorem filter_upTo (handled : List Kind) (events : List Element) :
    (upTo (stops handled) events).filter (fun element => element.kind ∈ handled) =
      (events.takeWhile fun element => !stops handled element).filter
        fun element => element.kind ∈ handled := by
  rw [upTo, List.filter_append]
  cases found : events.find? (stops handled) with
  | none => simp
  | some element =>
    have stopped := List.find?_some found
    have unhandled : element.kind ∉ handled := by simp_all [stops]
    simp [unhandled]

/-- A recorder has the calls of the elements before the first one that it had to handle and
    did not, and reports that one. -/
theorem run_record (handled : List Kind) (start : Start) :
    run (start.walk (record handled)) =
      (((start.events.takeWhile fun element => !stops handled element).filter
          fun element => element.kind ∈ handled).map Element.call,
        (start.events.find? (stops handled)).map Element.unhandled) := by
  have outcome := run_visitAll (run_record_element handled) start.events []
  rw [isSome_fault, findSome?_fault, foldl_recorded, filter_upTo, List.nil_append] at outcome
  rw [run, walk_eq_visitAll, outcome]
  cases start.events.find? (stops handled) <;> rfl

/-! ## What a recorder comes to -/

/-- A recorder that is watched: what it comes to is noted, whether it handles that or not. -/
def watch (handled : List Kind) (element : Element) :
    ExceptT Unhandled (StateM (List Element × List Call)) Unit :=
  ExceptT.mk do
    let (earlier, calls) ← get
    let (outcome, after) := (record handled element).run.run calls
    set (earlier ++ [element], after)
    return outcome

/-- The elements that a watched recorder came to. -/
def watched (walk : ExceptT Unhandled (StateM (List Element × List Call)) Unit) :
    List Element :=
  (walk.run.run ([], [])).2.1

theorem run_watch_element (handled : List Kind) (element : Element)
    (state : List Element × List Call) :
    (watch handled element).run.run state = ((fault? handled element).elim (.ok ()) .error,
      state.1 ++ [element], recorded handled state.2 element) := by
  have outcome := run_record_element handled element state.2
  calc (watch handled element).run.run state
      = (((record handled element).run.run state.2).1, state.1 ++ [element],
          ((record handled element).run.run state.2).2) := rfl
    _ = _ := by rw [outcome]

theorem foldl_watched (handled : List Kind) (events : List Element)
    (state : List Element × List Call) :
    (events.foldl (fun state element =>
      (state.1 ++ [element], recorded handled state.2 element)) state).1 = state.1 ++ events := by
  induction events generalizing state with
  | nil => simp
  | cons element rest ih => simp [ih]

theorem watched_walk (handled : List Kind) (start : Start) :
    watched (start.walk (watch handled)) = upTo (stops handled) start.events := by
  have outcome := run_visitAll (run_watch_element handled) start.events ([], [])
  rw [isSome_fault] at outcome
  rw [watched, walk_eq_visitAll, outcome, foldl_watched, List.nil_append]

/-- A recorder goes through the elements below a starting point in order. It remembers
    those that it handles, passes others by that hold elements, and fails exactly if there is
    an argument or a compound that it does not handle: at the first one, with its kind and its
    name, and nothing behind it is visited. A walk over an option comes to the arguments of
    the option in order, and a single compound is visited without its constituents. -/
theorem recorder_spec (handled : List Kind) (start : Start) :
    let before := start.events.takeWhile fun element => !stops handled element
    let first := start.events.find? (stops handled)
    run (start.walk (record handled)) =
        ((before.filter fun element => element.kind ∈ handled).map Element.call,
          first.map Element.unhandled) ∧
      ((run (start.walk (record handled))).2.isSome ↔ ∃ element ∈ start.events,
        element.kind ∉ handled ∧ element.kind.isContainer = false) ∧
      watched (start.walk (watch handled)) = before ++ first.toList ∧
      (∀ o, (seen (option note o)).filterMap Element.node? = o.arguments) ∧
      (∀ i, seen (item note i) = [i.element]) := by
  intro before first
  have outcome := run_record handled start
  refine ⟨outcome, ?_, watched_walk handled start, fun o => ?_, fun i => ?_⟩
  · rw [outcome, Option.isSome_map, List.find?_isSome]
    simp [stops, and_comm]
  · rw [← filterMap_preorder]
    exact congrArg _ (seen_walk (.option o))
  · exact seen_walk (.item i)

/-- A compound comes before its constituents, and the first of them that is not handled ends
    the walk. -/
example :
    run (option (record [.option, .compound, .constant]) { ident := ⟨"allocate"⟩, items := [
      .compound ⟨.size, [.constant ⟨⟨"w"⟩, "int", "2"⟩, .output { ident := ⟨"h"⟩ }]⟩,
      .node (.output { ident := ⟨"dst"⟩ })] }) =
      ([⟨.option, "allocate"⟩, ⟨.compound, "size(w, h)"⟩, ⟨.constant, "w"⟩],
        some ⟨.output, "h"⟩) := by
  decide

end Walk
end OperatorGen
