import OperatorGen.Emission.DataIds

/-!
# The ids that a method collects

Ids are collected node by node. What one node adds (`mem_ids_add`, `mem_parameters_add`)
gives what a method declares: the spellings of its arguments other than constants, and
parameters only among the nodes that are kept.
-/
namespace OperatorGen

/-- Whether an argument has a data id; a constant has none. -/
def Node.hasId : Node → Bool
  | constant _ => false
  | _ => true

namespace DataIds

theorem add_constant (seen : DataIds) (c : Constant) : seen.add (.constant c) = seen := rfl

theorem add_seen {seen : DataIds} {node : Node} (known : node.ident ∈ seen.ids) :
    seen.add node = seen := by
  cases node <;> simp_all [add]

theorem add_new {seen : DataIds} {node : Node} (id : node.hasId = true)
    (new : node.ident ∉ seen.ids) :
    seen.add node =
      { ids := seen.ids ++ [node.ident]
        parameters := if node.isParameter then seen.parameters ++ [node] else seen.parameters } := by
  cases node <;> simp_all [add, Node.hasId]

/-- What the collection has after one more node. -/
theorem mem_ids_add {seen : DataIds} {node : Node} {ident : Ident} :
    ident ∈ (seen.add node).ids ↔ ident ∈ seen.ids ∨ node.hasId = true ∧ node.ident = ident := by
  by_cases id : node.hasId = true
  · by_cases known : node.ident ∈ seen.ids
    · rw [add_seen known]
      constructor
      · exact .inl
      · rintro (old | ⟨-, rfl⟩)
        · exact old
        · exact known
    · rw [add_new id known]
      simp [id, eq_comm]
  · cases node <;> simp_all [Node.hasId, add_constant]

theorem mem_parameters_add {seen : DataIds} {node n : Node}
    (member : n ∈ (seen.add node).parameters) :
    n ∈ seen.parameters ∨ n = node ∧ node.isParameter = true := by
  by_cases id : node.hasId = true
  · by_cases known : node.ident ∈ seen.ids
    · rw [add_seen known] at member
      exact .inl member
    · rw [add_new id known] at member
      by_cases parameter : node.isParameter = true
      · simp only [parameter, if_true, List.mem_append, List.mem_singleton] at member
        exact member.imp_right fun same => ⟨same, parameter⟩
      · simp only [parameter] at member
        exact .inl member
  · cases node <;> simp_all [Node.hasId, add_constant]

theorem mem_ids_foldl_add {nodes : List Node} {seen : DataIds} {ident : Ident} :
    ident ∈ (nodes.foldl add seen).ids ↔
      ident ∈ seen.ids ∨ ∃ node ∈ nodes, node.hasId = true ∧ node.ident = ident := by
  induction nodes generalizing seen with
  | nil => simp
  | cons node rest ih => simp only [List.foldl_cons, ih, mem_ids_add, List.mem_cons,
      exists_eq_or_imp, or_assoc]

/-- The ids that a method declares are the spellings of its arguments other than constants. -/
theorem mem_ids_declared {method : Method} {ident : Ident} :
    ident ∈ (declared method).ids ↔
      ∃ option ∈ method.options, ∃ node ∈ option.arguments,
        node.hasId = true ∧ node.ident = ident := by
  simp only [declared, mem_ids_foldl_add, Method.arguments, List.mem_flatMap]
  constructor
  · rintro (impossible | ⟨node, ⟨option, inMethod, inOption⟩, named⟩)
    · simp at impossible
    · exact ⟨option, inMethod, node, inOption, named⟩
  · rintro ⟨option, inMethod, node, inOption, named⟩
    exact .inr ⟨node, ⟨option, inMethod, inOption⟩, named⟩

theorem isParameter_of_mem_foldl_add {nodes : List Node} {seen : DataIds} {n : Node}
    (before : ∀ p ∈ seen.parameters, p.isParameter = true)
    (member : n ∈ (nodes.foldl add seen).parameters) : n.isParameter = true := by
  induction nodes generalizing seen with
  | nil => exact before n member
  | cons node rest ih =>
    refine ih ?_ member
    intro p kept
    rcases mem_parameters_add kept with old | ⟨rfl, parameter⟩
    · exact before p old
    · exact parameter

/-- What is collected is what is declared, with the data flow where there is a choice. -/
theorem collect_cases {method : Method} {ids : DataIds} (collected : collect method = .ok ids) :
    (method.options.length ≤ 1 ∧ ids = declared method) ∨
      (1 < method.options.length ∧ dataFlow ∉ (declared method).ids ∧
        ids = (declared method).add (.enumeration (dataFlowParameter method.options))) := by
  simp only [collect, complete] at collected
  split at collected
  · split at collected
    · cases collected
    · next choice free => exact .inr ⟨choice, free, (Except.ok.inj collected).symm⟩
  · next few => exact .inl ⟨Nat.le_of_not_lt few, (Except.ok.inj collected).symm⟩

theorem collect_error_iff {method : Method} {error : EmitError} :
    collect method = .error error ↔
      1 < method.options.length ∧ dataFlow ∈ (declared method).ids ∧
        error = .reservedDataFlow method.ident := by
  simp only [collect, complete]
  split
  · next choice =>
    split
    · next taken => simp [choice, taken, eq_comm]
    · next free => simp [free]
  · next few => simp [few]

/-- Every node that is kept among the ids is a parameter. -/
theorem isParameter_of_mem_collect {method : Method} {ids : DataIds} {n : Node}
    (collected : collect method = .ok ids) (member : n ∈ ids.parameters) :
    n.isParameter = true := by
  have declaredOnly : ∀ p ∈ (declared method).parameters, p.isParameter = true :=
    fun p kept => isParameter_of_mem_foldl_add (by simp) kept
  rcases collect_cases collected with ⟨-, rfl⟩ | ⟨-, -, rfl⟩
  · exact declaredOnly n member
  · rcases mem_parameters_add member with old | ⟨rfl, parameter⟩
    · exact declaredOnly n old
    · exact parameter

/-- What a method declares is among the ids that it collects. -/
theorem mem_collect_of_declared {method : Method} {ids : DataIds} {ident : Ident}
    (collected : collect method = .ok ids) (member : ident ∈ (declared method).ids) :
    ident ∈ ids.ids := by
  rcases collect_cases collected with ⟨-, rfl⟩ | ⟨-, -, rfl⟩
  · exact member
  · exact mem_ids_add.mpr (.inl member)

/-! ## Order -/

/-- Ids are collected once each, and the parameters in the order of their ids. -/
structure Orderly (ids : DataIds) : Prop where
  distinct : ids.ids.Nodup
  parameters : (ids.parameters.map Node.ident).Sublist ids.ids

/-- Parameters are kept once each. -/
theorem Orderly.nodup_parameters {ids : DataIds} (orderly : Orderly ids) :
    (ids.parameters.map Node.ident).Nodup :=
  orderly.distinct.sublist orderly.parameters

theorem orderly_empty : Orderly {} := ⟨List.nodup_nil, .slnil⟩

theorem Orderly.add {seen : DataIds} {node : Node} (orderly : Orderly seen) :
    Orderly (seen.add node) := by
  by_cases id : node.hasId = true
  · by_cases known : node.ident ∈ seen.ids
    · rw [add_seen known]
      exact orderly
    · rw [add_new id known]
      constructor
      · refine List.nodup_append.mpr ⟨orderly.distinct, by simp, ?_⟩
        rintro old inSeen _ new rfl
        exact known (List.mem_singleton.mp new ▸ inSeen)
      · by_cases parameter : node.isParameter = true
        · simp only [parameter, if_true, List.map_append, List.map_cons, List.map_nil]
          exact orderly.parameters.append (List.Sublist.refl _)
        · simp only [parameter]
          exact orderly.parameters.trans (List.sublist_append_left _ _)
  · cases node <;> simp_all [Node.hasId, add_constant]

theorem orderly_declared (method : Method) : Orderly (declared method) := by
  have keeps : ∀ {nodes : List Node} {seen : DataIds}, Orderly seen →
      Orderly (nodes.foldl DataIds.add seen) := by
    intro nodes
    induction nodes with
    | nil => exact fun orderly => orderly
    | cons node rest ih => exact fun orderly => ih orderly.add
  exact keeps orderly_empty

/-- With several options there is a data flow, so the options that are not selected by one are
    at most one. -/
theorem hasDataFlow_or_single {method : Method} {ids : DataIds}
    (collected : collect method = .ok ids) :
    ids.hasDataFlow = true ∨ method.options.length ≤ 1 := by
  rcases collect_cases collected with ⟨single, -⟩ | ⟨-, -, rfl⟩
  · exact .inr single
  · exact .inl (List.contains_iff_mem.mpr (mem_ids_add.mpr (.inr ⟨rfl, rfl⟩)))

end DataIds
end OperatorGen
