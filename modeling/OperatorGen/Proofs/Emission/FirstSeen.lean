import Mathlib.Data.List.Basic
import Mathlib.Data.List.Induction
import OperatorGen.Proofs.Emission.DataIds

/-!
# Ids in the order in which they are first seen

The collection of ids is a fold, which looks at each node and at what it has collected so
far. What comes out is said here without it (`FirstSeen`): the ids are the distinct
spellings of the arguments other than constants, each where it is first seen, and a spelling
belongs to a parameter exactly if the first argument with it is one. An argument that comes
later with the same spelling changes nothing, whatever its kind.
-/
namespace OperatorGen

/-- The first argument with a spelling among those that have ids. -/
def firstNamed? (nodes : List Node) (ident : Ident) : Option Node :=
  nodes.find? fun node => node.hasId && node.ident = ident

theorem firstNamed?_eq_some {nodes : List Node} {ident : Ident} {node : Node}
    (found : firstNamed? nodes ident = some node) :
    node ∈ nodes ∧ node.hasId = true ∧ node.ident = ident := by
  have named := List.find?_some found
  rw [Bool.and_eq_true, decide_eq_true_iff] at named
  exact ⟨List.mem_of_find?_eq_some found, named⟩

theorem isSome_firstNamed?_iff {nodes : List Node} {ident : Ident} :
    (firstNamed? nodes ident).isSome = true ↔
      ∃ node ∈ nodes, node.hasId = true ∧ node.ident = ident := by
  simp only [firstNamed?, List.find?_isSome, Bool.and_eq_true, decide_eq_true_iff]

/-- A later argument is not the first with a spelling that has been seen. -/
theorem firstNamed?_concat {nodes : List Node} {ident : Ident} {node : Node} :
    firstNamed? (nodes ++ [node]) ident =
      (firstNamed? nodes ident).or (firstNamed? [node] ident) :=
  List.find?_append

/-- Distinct elements in the order in which they are first seen, with one more element. -/
theorem eraseDups_concat {α : Type} [DecidableEq α] (list : List α) (x : α) :
    (list ++ [x]).eraseDups = if x ∈ list then list.eraseDups else list.eraseDups ++ [x] := by
  rw [List.eraseDups_append]
  by_cases seen : x ∈ list
  · simp [seen, List.removeAll]
  · simp [seen, List.removeAll, List.eraseDups_cons]

namespace DataIds

/-- The collection of nodes in the order in which they are first seen. -/
structure FirstSeen (nodes : List Node) (kept : DataIds) : Prop where
  ids : kept.ids = ((nodes.filter Node.hasId).map Node.ident).eraseDups
  parameters : kept.parameters = (kept.ids.filterMap (firstNamed? nodes)).filter Node.isParameter

theorem FirstSeen.mem_ids_iff {nodes : List Node} {ids : DataIds} (seen : FirstSeen nodes ids)
    {ident : Ident} : ident ∈ ids.ids ↔ (firstNamed? nodes ident).isSome = true := by
  rw [seen.ids, List.mem_eraseDups, isSome_firstNamed?_iff]
  simp only [List.mem_map, List.mem_filter, and_assoc]

/-- Looking at one more node leaves the first nodes of the spellings before it alone. -/
theorem FirstSeen.firstNamed?_eq {nodes : List Node} {ids : DataIds} (seen : FirstSeen nodes ids)
    (node : Node) {ident : Ident} (known : ident ∈ ids.ids) :
    firstNamed? (nodes ++ [node]) ident = firstNamed? nodes ident := by
  obtain ⟨first, found⟩ := Option.isSome_iff_exists.mp (seen.mem_ids_iff.mp known)
  rw [firstNamed?_concat, found, Option.some_or]

theorem FirstSeen.filterMap_eq {nodes : List Node} {ids : DataIds} (seen : FirstSeen nodes ids)
    (node : Node) :
    ids.ids.filterMap (firstNamed? (nodes ++ [node])) = ids.ids.filterMap (firstNamed? nodes) :=
  List.filterMap_congr fun _ known => seen.firstNamed?_eq node known

theorem FirstSeen.add {nodes : List Node} {ids : DataIds} (seen : FirstSeen nodes ids)
    (node : Node) : FirstSeen (nodes ++ [node]) (ids.add node) := by
  by_cases id : node.hasId = true
  · have spellings : (((nodes ++ [node]).filter Node.hasId).map Node.ident).eraseDups =
        if node.ident ∈ ids.ids then ids.ids else ids.ids ++ [node.ident] := by
      rw [List.filter_append, List.map_append, List.filter_cons_of_pos id, List.filter_nil,
        List.map_cons, List.map_nil, eraseDups_concat, seen.ids]
      simp only [List.mem_eraseDups]
    by_cases known : node.ident ∈ ids.ids
    · rw [add_seen known]
      constructor
      · rw [spellings, if_pos known]
      · rw [seen.filterMap_eq, ← seen.parameters]
    · rw [add_new id known]
      have fresh : firstNamed? (nodes ++ [node]) node.ident = some node := by
        have unseen : firstNamed? nodes node.ident = none := by
          rw [← Option.not_isSome_iff_eq_none, ← seen.mem_ids_iff]
          exact known
        rw [firstNamed?_concat, unseen, Option.none_or]
        simp [firstNamed?, id]
      constructor
      · rw [spellings, if_neg known]
      · rw [List.filterMap_append, seen.filterMap_eq, List.filter_append, ← seen.parameters,
          List.filterMap_cons_some fresh, List.filterMap_nil]
        by_cases parameter : node.isParameter = true
        · simp [parameter]
        · simp [parameter]
  · -- A constant is neither collected nor looked at.
    have none : node.hasId = false := Bool.eq_false_iff.mpr id
    have same : ids.add node = ids := by
      cases node <;> simp_all [Node.hasId, add_constant]
    have firsts : firstNamed? (nodes ++ [node]) = firstNamed? nodes := by
      funext ident
      rw [firstNamed?_concat]
      simp [firstNamed?, none]
    rw [same]
    constructor
    · rw [List.filter_append, List.filter_cons_of_neg id, List.filter_nil, List.append_nil,
        seen.ids]
    · rw [firsts, ← seen.parameters]

/-- Nodes are collected in the order in which they are first seen. -/
theorem firstSeen_foldl_add (nodes : List Node) : FirstSeen nodes (nodes.foldl add {}) := by
  induction nodes using List.reverseRecOn with
  | nil => exact ⟨rfl, rfl⟩
  | append_singleton rest node ih =>
    rw [List.foldl_append]
    exact ih.add node

theorem firstSeen_declared (method : Method) : FirstSeen method.arguments (declared method) :=
  firstSeen_foldl_add method.arguments

/-- The spellings of the parameters that are kept. -/
def parameterIdents (ids : DataIds) : List Ident :=
  ids.parameters.map Node.ident

/-- The kept parameters are spelled like those ids whose first argument is a parameter. -/
theorem FirstSeen.parameterIdents_eq {nodes : List Node} {ids : DataIds}
    (seen : FirstSeen nodes ids) :
    ids.parameterIdents =
      ids.ids.filter fun ident => (firstNamed? nodes ident).any Node.isParameter := by
  have each : ∀ idents : List Ident, (∀ ident ∈ idents, ident ∈ ids.ids) →
      ((idents.filterMap (firstNamed? nodes)).filter Node.isParameter).map Node.ident =
        idents.filter fun ident => (firstNamed? nodes ident).any Node.isParameter := by
    intro idents
    induction idents with
    | nil => intro _; rfl
    | cons ident rest ih =>
      intro known
      have tail := ih fun other member => known other (List.mem_cons_of_mem _ member)
      obtain ⟨first, found⟩ := Option.isSome_iff_exists.mp
        (seen.mem_ids_iff.mp (known ident List.mem_cons_self))
      obtain ⟨-, -, spelled⟩ := firstNamed?_eq_some found
      rw [List.filterMap_cons_some found]
      by_cases parameter : first.isParameter = true
      · simp [found, parameter, spelled, tail]
      · simp [found, parameter, tail]
  rw [parameterIdents, seen.parameters]
  exact each ids.ids fun _ member => member

end DataIds

/-! ## Methods -/

namespace Method

/-- The distinct spellings of the arguments other than constants, each where it is first
    seen. -/
def idents (method : Method) : List Ident :=
  ((method.arguments.filter Node.hasId).map Node.ident).eraseDups

/-- Whether the first argument with a spelling, other than a constant, is a parameter. -/
def firstIsParameter (method : Method) (ident : Ident) : Bool :=
  (firstNamed? method.arguments ident).any Node.isParameter

/-- The data flow, where there is a choice of options. -/
def selector (method : Method) : List Ident :=
  if 1 < method.options.length then [dataFlow] else []

end Method

namespace DataIds

/-- The ids of a method in order: those of its arguments, and then the data flow. -/
theorem ids_of_collect {method : Method} {ids : DataIds} (collected : collect method = .ok ids) :
    ids.ids = method.idents ++ method.selector := by
  have declaredIds : (declared method).ids = method.idents := (firstSeen_declared method).ids
  rcases collect_cases collected with ⟨few, rfl⟩ | ⟨choice, free, rfl⟩
  · rw [Method.selector, if_neg (Nat.not_lt_of_le few), List.append_nil, declaredIds]
  · rw [Method.selector, if_pos choice, add_new rfl free, declaredIds]
    rfl

/-- The spellings of the parameters of a method in order. -/
theorem parameterIdents_of_collect {method : Method} {ids : DataIds}
    (collected : collect method = .ok ids) :
    ids.parameterIdents = method.idents.filter method.firstIsParameter ++ method.selector := by
  have seen := firstSeen_declared method
  have declaredParameters : (declared method).parameterIdents =
      method.idents.filter method.firstIsParameter := by
    rw [seen.parameterIdents_eq, seen.ids]
    rfl
  rcases collect_cases collected with ⟨few, rfl⟩ | ⟨choice, free, rfl⟩
  · rw [Method.selector, if_neg (Nat.not_lt_of_le few), List.append_nil, declaredParameters]
  · rw [Method.selector, if_pos choice, add_new rfl free, ← declaredParameters]
    simp only [parameterIdents, Node.isParameter, Node.parameter?, Option.isSome_some, if_true,
      List.map_append]
    rfl

/-- The ids of a method are collected once each, the data flow included. -/
theorem orderly_of_collect {method : Method} {ids : DataIds}
    (collected : collect method = .ok ids) : Orderly ids := by
  rcases collect_cases collected with ⟨-, rfl⟩ | ⟨-, -, rfl⟩
  · exact orderly_declared method
  · exact (orderly_declared method).add

end DataIds
end OperatorGen
