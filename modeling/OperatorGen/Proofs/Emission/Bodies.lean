import OperatorGen.Emission.Body
import OperatorGen.Proofs.FirstError

/-!
# What a body is made of

A body takes in the arguments of an option one after another, and what belongs behind the
call is kept until then. What a body is made of in the end can be told from the list of
arguments alone (`ofOption_eq`): each part of it is what every argument contributes, in the
order of the arguments.
-/
namespace OperatorGen

namespace Node

/-- The argument that a node returns from the call. -/
def output? : Node → Option Argument
  | output argument => some argument
  | _ => none

/-- The fragments of a node that run before the call. -/
def fragmentsBefore (node : Node) : List String :=
  (node.argument?.map Argument.initIn).getD []

/-- The fragments of a node that run after the call. -/
def fragmentsAfter (node : Node) : List String :=
  (node.argument?.map Argument.initOut).getD []

end Node

namespace Body

/-- The statements that declare the native variable of a node in front of the call; an output
    is declared by the call. -/
def declarationsOf (option : MethodOption) : Node → List Statement
  | .input argument _ => declareInput argument
  | .output _ => []
  | .refInput argument target =>
    match option.resolve? argument target with
    | some node => declareRefInput argument node
    | none => []
  | .allocation argument => [.allocate argument.nativeType argument.ident]
  | .constant c => [.declare c.nativeType c.ident (.literal c.value)]
  | .parameter p => [declareParameter p.argument]
  | .numeric n => [declareParameter n.parameter.argument]
  | .enumeration e => [declareEnum e.parameter.argument]

/-- The statements that hand a node back. -/
def sendsOf : Node → List Statement
  | .output argument => [.send argument.ident .wrapped]
  | .refInput argument _ => [.send argument.ident .received]
  | .allocation argument => [.send argument.ident .wrapped]
  | _ => []

/-- A body that has taken in nodes consists of what they contribute. -/
structure TakenIn (option : MethodOption) (nodes : List Node) (body : Body) : Prop where
  declarations : body.declarations = nodes.flatMap (declarationsOf option)
  before : body.before = nodes.flatMap Node.fragmentsBefore
  after : body.after = nodes.flatMap Node.fragmentsAfter
  sends : body.sends = nodes.flatMap sendsOf
  result : body.result = nodes.findSome? Node.output?

variable {option : MethodOption} {nodes : List Node} {body next : Body} {node : Node}

theorem takenIn_nil : TakenIn option [] {} :=
  ⟨rfl, rfl, rfl, rfl, rfl⟩

/-- A node is taken in by adding to every part what the node contributes. -/
private theorem TakenIn.extend (taken : TakenIn option nodes body)
    (declarations : next.declarations = body.declarations ++ declarationsOf option node)
    (before : next.before = body.before ++ node.fragmentsBefore)
    (after : next.after = body.after ++ node.fragmentsAfter)
    (sends : next.sends = body.sends ++ sendsOf node)
    (result : next.result = body.result.or node.output?) :
    TakenIn option (nodes ++ [node]) next where
  declarations := by
    rw [declarations, taken.declarations, List.flatMap_append, List.flatMap_singleton]
  before := by rw [before, taken.before, List.flatMap_append, List.flatMap_singleton]
  after := by rw [after, taken.after, List.flatMap_append, List.flatMap_singleton]
  sends := by rw [sends, taken.sends, List.flatMap_append, List.flatMap_singleton]
  result := by
    rw [result, taken.result, List.findSome?_append, List.findSome?_singleton]

theorem TakenIn.add (taken : TakenIn option nodes body)
    (added : body.add option node = .ok next) : TakenIn option (nodes ++ [node]) next := by
  have nothing : ∀ {α : Type} (list : List α), list = list ++ [] := fun list =>
    (List.append_nil list).symm
  have kept : body.result = body.result.or none := Option.or_none.symm
  cases node with
  | output argument =>
    simp only [Body.add] at added
    split at added
    · cases added
    · next first =>
      cases added
      exact taken.extend (nothing _) rfl rfl rfl (by rw [first]; rfl)
  | refInput argument target =>
    simp only [Body.add] at added
    split at added
    · cases added
    · next found resolved =>
      cases added
      have declared : declarationsOf option (.refInput argument target) =
          declareRefInput argument found := by
        rw [declarationsOf, resolved]
      exact taken.extend (by rw [declared]; rfl) rfl rfl rfl kept
  | allocation argument =>
    cases added
    exact taken.extend rfl rfl rfl rfl kept
  | constant c =>
    cases added
    exact taken.extend rfl (nothing _) (nothing _) (nothing _) kept
  | _ =>
    cases added
    exact taken.extend rfl rfl rfl (nothing _) kept

theorem TakenIn.addAll {rest : List Node} (taken : TakenIn option nodes body)
    (added : body.addAll option rest = .ok next) : TakenIn option (nodes ++ rest) next := by
  induction rest generalizing body nodes with
  | nil =>
    cases added
    rwa [List.append_nil]
  | cons node others ih =>
    rw [Body.addAll, bind_ok_iff] at added
    obtain ⟨between, first, later⟩ := added
    have whole := ih (taken.add first) later
    rwa [List.append_assoc, List.singleton_append] at whole

/-- The body of an option: the declarations of its arguments and the fragments before the call,
    the call, and behind it the other fragments and what is handed back. -/
theorem ofOption_eq {function : String} {statements : List Statement}
    (made : ofOption function option = .ok statements) :
    statements =
      option.arguments.flatMap (declarationsOf option) ++
        (option.arguments.flatMap Node.fragmentsBefore).map .fragment ++ [.blank] ++
        [.call (option.arguments.findSome? Node.output?) function option.items] ++ [.blank] ++
        (option.arguments.flatMap Node.fragmentsAfter).map .fragment ++
        option.arguments.flatMap sendsOf := by
  rw [ofOption, bind_ok_iff] at made
  obtain ⟨body, added, same⟩ := made
  cases same
  have taken : TakenIn option option.arguments body := takenIn_nil.addAll added
  simp only [Body.statements, opening, closing, taken.declarations, taken.before, taken.after,
    taken.sends, taken.result, List.append_assoc]

end Body
end OperatorGen
