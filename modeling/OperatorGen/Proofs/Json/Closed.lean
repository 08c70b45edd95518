import OperatorGen.Json.Tree
import Mathlib.Algebra.Group.Nat.Defs

/-!
# Closed trees

A tree is closed if nothing in it breaks off: every list and every object comes to its
bracket (`Tree.Closed`). The tokens of a closed tree are made up to the tree again
(`Closed.parse`), and a reader passes over it (`Closed.skip`). Its numbers and strings may
still denote nothing.
-/
namespace OperatorGen.Json.Tree

mutual

/-- The tokens that a closed tree is made of. -/
def tokens : Tree → List Token
  | null => [.null]
  | boolean value => [.boolean value]
  | number value => [.number value]
  | text value => [.text value]
  | list elements _ => .openList :: (tokensList elements ++ [.closeList])
  | object members _ => .openObject :: (tokensMembers members ++ [.closeObject])
  | broken reading skipping => [.broken reading skipping]
  | missing => []

/-- The tokens of elements, with commas between them. -/
def tokensList : List Tree → List Token
  | [] => []
  | [element] => tokens element
  | element :: rest => tokens element ++ .comma :: tokensList rest

/-- The tokens of members, with commas between them. -/
def tokensMembers : List (Except Fault String × Tree) → List Token
  | [] => []
  | [(name, member)] => .text name :: .colon :: tokens member
  | (name, member) :: rest =>
    .text name :: .colon :: (tokens member ++ .comma :: tokensMembers rest)

end

/-- Nothing in a tree breaks off. -/
inductive Closed : Tree → Prop
  | null : Closed .null
  | boolean (value : Bool) : Closed (.boolean value)
  | number (value : Except Fault Number) : Closed (.number value)
  | text (value : Except Fault String) : Closed (.text value)
  | list {elements : List Tree} (each : ∀ element ∈ elements, Closed element) :
    Closed (.list elements .closed)
  | object {members : List (Except Fault String × Tree)}
      (each : ∀ member ∈ members, Closed member.2) : Closed (.object members .closed)

/-! ## Parsing -/

/-- The tokens of a tree are made up to it, whatever tokens follow, given a step for each
    token and one for each place between two. -/
def Parses (tree : Tree) : Prop :=
  ∀ fuel rest, 2 * tree.tokens.length ≤ fuel + 1 →
    parseValue fuel (tree.tokens ++ rest) = (tree, rest)

/-- No closed tree begins with a closing bracket. -/
theorem Closed.tokens_eq_cons {tree : Tree} (closed : tree.Closed) :
    ∃ token tail, tree.tokens = token :: tail ∧ token ≠ .closeList ∧ token ≠ .closeObject := by
  cases closed <;> exact ⟨_, _, rfl, nofun, nofun⟩

theorem Closed.tokens_length_pos {tree : Tree} (closed : tree.Closed) : 0 < tree.tokens.length := by
  obtain ⟨token, tail, first, -⟩ := closed.tokens_eq_cons
  rw [first]
  exact Nat.succ_pos _

theorem afterElement_comma {token : Token} (begins : token ≠ .closeList) (rest : List Token) :
    afterElement (.comma :: token :: rest) = .inr (token :: rest) := by
  cases token <;> first | rfl | exact absurd rfl begins

theorem parseValue_openList {token : Token} (begins : token ≠ .closeList) (fuel : Nat)
    (rest : List Token) :
    parseValue (fuel + 1) (.openList :: token :: rest) =
      (list (parseElements fuel (token :: rest)).1 (parseElements fuel (token :: rest)).2.1,
        (parseElements fuel (token :: rest)).2.2) := by
  cases token <;> first | rfl | exact absurd rfl begins

theorem tokensList_cons_cons (first second : Tree) (rest : List Tree) :
    tokensList (first :: second :: rest) =
      first.tokens ++ .comma :: tokensList (second :: rest) := by
  rw [tokensList]
  exact nofun

/-- The tokens of a member. -/
def memberTokens (member : Except Fault String × Tree) : List Token :=
  .text member.1 :: .colon :: member.2.tokens

theorem tokensMembers_cons_cons (first second : Except Fault String × Tree)
    (rest : List (Except Fault String × Tree)) :
    tokensMembers (first :: second :: rest) =
      memberTokens first ++ .comma :: tokensMembers (second :: rest) := by
  rw [tokensMembers]
  · rfl
  · exact nofun

theorem tokensList_eq_intercalate (elements : List Tree) :
    tokensList elements = [.comma].intercalate (elements.map tokens) := by
  induction elements with
  | nil => rfl
  | cons element rest ih =>
    cases rest with
    | nil => rw [tokensList, List.map_cons, List.map_nil, List.intercalate_singleton]
    | cons second rest =>
      simp only [tokensList_cons_cons, ih, List.map_cons, List.intercalate_cons_cons,
        List.append_assoc, List.singleton_append]

theorem tokensMembers_eq_intercalate (members : List (Except Fault String × Tree)) :
    tokensMembers members = [.comma].intercalate (members.map memberTokens) := by
  induction members with
  | nil => rfl
  | cons member rest ih =>
    cases rest with
    | nil =>
      rw [tokensMembers, List.map_cons, List.map_nil, List.intercalate_singleton, memberTokens]
    | cons second rest =>
      simp only [tokensMembers_cons_cons, ih, List.map_cons, List.intercalate_cons_cons,
        List.append_assoc, List.singleton_append]

theorem tokensList_eq_cons {element : Tree} (closed : element.Closed) (rest : List Tree) :
    ∃ token tail, tokensList (element :: rest) = token :: tail ∧ token ≠ .closeList := by
  obtain ⟨token, tail, first, begins, -⟩ := closed.tokens_eq_cons
  cases rest with
  | nil => exact ⟨token, tail, first, begins⟩
  | cons second rest =>
    refine ⟨token, tail ++ .comma :: tokensList (second :: rest), ?_, begins⟩
    rw [tokensList_cons_cons, first, List.cons_append]

theorem tokensMembers_eq_cons (member : Except Fault String × Tree)
    (rest : List (Except Fault String × Tree)) :
    ∃ name tail, tokensMembers (member :: rest) = .text name :: tail := by
  cases rest <;> exact ⟨_, _, rfl⟩

/-- The tokens of elements are made up to them. -/
theorem parseElements_tokens {element : Tree} {others : List Tree}
    (closed : ∀ e ∈ element :: others, e.Closed) (each : ∀ e ∈ element :: others, Parses e)
    (fuel : Nat) (rest : List Token)
    (enough : 2 * (tokensList (element :: others)).length ≤ fuel) :
    parseElements fuel (tokensList (element :: others) ++ .closeList :: rest) =
      (element :: others, .closed, rest) := by
  induction others generalizing element fuel with
  | nil =>
    have some := (closed element List.mem_cons_self).tokens_length_pos
    rw [tokensList] at enough ⊢
    obtain ⟨fuel, rfl⟩ := Nat.exists_eq_add_of_le' (show 1 ≤ fuel by omega)
    have first := each element List.mem_cons_self fuel (.closeList :: rest) (by omega)
    simp only [parseElements, first, afterElement]
  | cons second others ih =>
    have some := (closed element List.mem_cons_self).tokens_length_pos
    rw [tokensList_cons_cons, List.length_append, List.length_cons] at enough
    obtain ⟨fuel, rfl⟩ := Nat.exists_eq_add_of_le' (show 1 ≤ fuel by omega)
    have first := each element List.mem_cons_self fuel
      (.comma :: (tokensList (second :: others) ++ .closeList :: rest)) (by omega)
    have behind := (List.forall_mem_cons.mp closed).2
    have later := ih behind (List.forall_mem_cons.mp each).2 fuel (by omega)
    obtain ⟨token, tail, begun, begins⟩ :=
      tokensList_eq_cons (behind second List.mem_cons_self) others
    rw [begun, List.cons_append] at first later
    rw [tokensList_cons_cons, begun, List.append_assoc, List.cons_append, List.cons_append]
    simp only [parseElements, first, afterElement_comma begins, later]

/-- The tokens of members are made up to them. -/
theorem parseMembers_tokens {member : Except Fault String × Tree}
    {others : List (Except Fault String × Tree)} (each : ∀ m ∈ member :: others, Parses m.2)
    (fuel : Nat) (rest : List Token)
    (enough : 2 * (tokensMembers (member :: others)).length ≤ fuel) :
    parseMembers fuel (tokensMembers (member :: others) ++ .closeObject :: rest) =
      (member :: others, .closed, rest) := by
  induction others generalizing member fuel with
  | nil =>
    obtain ⟨name, tree⟩ := member
    rw [tokensMembers] at enough ⊢
    simp only [List.length_cons] at enough
    obtain ⟨fuel, rfl⟩ := Nat.exists_eq_add_of_le' (show 1 ≤ fuel by omega)
    have first := each (name, tree) List.mem_cons_self fuel (.closeObject :: rest)
      (by simp only; omega)
    simp only [List.cons_append, parseMembers, first, afterMember]
  | cons second others ih =>
    obtain ⟨name, tree⟩ := member
    rw [tokensMembers_cons_cons, memberTokens] at enough
    simp only [List.length_cons, List.length_append] at enough
    obtain ⟨fuel, rfl⟩ := Nat.exists_eq_add_of_le' (show 1 ≤ fuel by omega)
    have first := each (name, tree) List.mem_cons_self fuel
      (.comma :: (tokensMembers (second :: others) ++ .closeObject :: rest)) (by simp only; omega)
    have later := ih (List.forall_mem_cons.mp each).2 fuel (by omega)
    obtain ⟨secondName, tail, begun⟩ := tokensMembers_eq_cons second others
    rw [begun, List.cons_append] at first later
    rw [tokensMembers_cons_cons, memberTokens, begun]
    simp only [List.cons_append, List.append_assoc, parseMembers, first, afterMember, later]

theorem Closed.parses {tree : Tree} (closed : tree.Closed) : Parses tree := by
  induction closed with
  | @list elements each ih =>
    intro fuel rest enough
    simp only [tokens, List.length_cons, List.length_append] at enough
    obtain ⟨fuel, rfl⟩ := Nat.exists_eq_add_of_le' (show 1 ≤ fuel by omega)
    rw [tokens, List.cons_append, List.append_assoc, List.singleton_append]
    cases elements with
    | nil => rfl
    | cons element others =>
      have parsed := parseElements_tokens each ih fuel rest (by omega)
      obtain ⟨token, tail, begun, begins⟩ :=
        tokensList_eq_cons (each element List.mem_cons_self) others
      rw [begun, List.cons_append] at parsed ⊢
      rw [parseValue_openList begins, parsed]
  | @object members each ih =>
    intro fuel rest enough
    simp only [tokens, List.length_cons, List.length_append] at enough
    obtain ⟨fuel, rfl⟩ := Nat.exists_eq_add_of_le' (show 1 ≤ fuel by omega)
    rw [tokens, List.cons_append, List.append_assoc, List.singleton_append]
    cases members with
    | nil => rfl
    | cons member others =>
      have parsed := parseMembers_tokens ih fuel rest (by omega)
      obtain ⟨name, tail, begun⟩ := tokensMembers_eq_cons member others
      rw [begun, List.cons_append] at parsed ⊢
      simp only [parseValue, parsed]
  | _ =>
    intro fuel rest enough
    simp only [tokens, List.length_singleton] at enough
    obtain ⟨fuel, rfl⟩ := Nat.exists_eq_add_of_le' (show 1 ≤ fuel by omega)
    rfl

/-- A closed tree is made of its tokens, and none are left. -/
theorem Closed.parse {tree : Tree} (closed : tree.Closed) : parse tree.tokens = (tree, []) := by
  have parsed := closed.parses (2 * tree.tokens.length + 1) [] (by omega)
  rwa [List.append_nil] at parsed

/-! ## Passing over -/

theorem skipList_of_each {elements : List Tree}
    (each : ∀ element ∈ elements, skip element = .ok ()) : skipList elements = .ok () := by
  induction elements with
  | nil => rfl
  | cons element rest ih =>
    obtain ⟨first, others⟩ := List.forall_mem_cons.mp each
    rw [skipList, first]
    exact ih others

theorem skipMembers_of_each {members : List (Except Fault String × Tree)}
    (each : ∀ member ∈ members, skip member.2 = .ok ()) : skipMembers members = .ok () := by
  induction members with
  | nil => rfl
  | cons member rest ih =>
    obtain ⟨first, others⟩ := List.forall_mem_cons.mp each
    rw [skipMembers, first]
    exact ih others

theorem Closed.skip {tree : Tree} (closed : tree.Closed) : tree.skip = .ok () := by
  induction closed with
  | list _ ih => rw [Tree.skip, skipList_of_each ih]; rfl
  | object _ ih => rw [Tree.skip, skipMembers_of_each ih]; rfl
  | _ => rfl

end OperatorGen.Json.Tree
