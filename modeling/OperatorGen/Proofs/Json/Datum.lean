import OperatorGen.Proofs.Json.Closed
import OperatorGen.Proofs.Json.Lexing
import OperatorGen.Proofs.Json.Units

/-!
# Data and their texts

A datum is a JSON value as a text tells it: a number by its digits, a string by its parts,
members in the order in which they stand. `Datum.Spells` is the grammar of JSON texts: the
characters of a datum, with blanks wherever the grammar has room for them. Two data are the
same value if they differ in nothing but how strings are written and in which order members
stand (`Datum.Same`).

A text that spells a datum is parsed as the tree of the datum (`Datum.Spells.ofText`).
-/
namespace OperatorGen.Json

open Text (Part)
open Token (Blank Lexes)

/-- A JSON value as it is written. -/
inductive Datum where
  | null
  | boolean (value : Bool)
  | number (numeral : Numeral)
  | text (parts : List Part)
  | list (elements : List Datum)
  | object (members : List (List Part × Datum))
  deriving Inhabited

namespace Datum

/-! ## Grammar -/

/-- Pieces of a text with commas between them. -/
def joined (texts : List (List Char)) : List Char :=
  [','].intercalate texts

/-- A datum and its characters. A list is given by its elements, each with its characters,
    and an object by its members: the name as it stands there, and the value. -/
inductive Spells : Datum → List Char → Prop
  | null : Spells .null ['n', 'u', 'l', 'l']
  | boolean (value : Bool) :
    Spells (.boolean value) (if value then ['t', 'r', 'u', 'e'] else ['f', 'a', 'l', 's', 'e'])
  | number {numeral : Numeral} {chars : List Char} (spelled : numeral.Spells chars) :
    Spells (.number numeral) chars
  | text {parts : List Part} {chars : List Char}
      (spelled : Text.Spells (parts.map Part.piece) chars) :
    Spells (.text parts) ('"' :: (chars ++ ['"']))
  | emptyList {inside : List Char} (blank : Blank inside) :
    Spells (.list []) ('[' :: (inside ++ [']']))
  | list {elements : List (Datum × List Char)} (some : elements ≠ [])
      (each : ∀ element ∈ elements, Spells element.1 element.2) :
    Spells (.list (elements.map Prod.fst)) ('[' :: (joined (elements.map Prod.snd) ++ [']']))
  | emptyObject {inside : List Char} (blank : Blank inside) :
    Spells (.object []) ('\x7b' :: (inside ++ ['\x7d']))
  | object {members : List ((List Part × List Char) × (Datum × List Char))}
      (some : members ≠ [])
      (names : ∀ member ∈ members, Spells (.text member.1.1) member.1.2)
      (each : ∀ member ∈ members, Spells member.2.1 member.2.2) :
    Spells (.object (members.map fun member => (member.1.1, member.2.1)))
      ('\x7b' :: (joined (members.map fun member => member.1.2 ++ ':' :: member.2.2) ++ ['\x7d']))
  | blanks {datum : Datum} {chars before after : List Char} (inFront : Blank before)
      (behind : Blank after) (spelled : Spells datum chars) :
    Spells datum (before ++ (chars ++ after))

/-! ## Sameness -/

/-- The same value, up to how strings are written and to the order of members. -/
inductive Same : Datum → Datum → Prop
  | null : Same .null .null
  | boolean (value : Bool) : Same (.boolean value) (.boolean value)
  | number (numeral : Numeral) : Same (.number numeral) (.number numeral)
  | text {parts others : List Part} (units : Text.units parts = Text.units others) :
    Same (.text parts) (.text others)
  | list {pairs : List (Datum × Datum)} (each : ∀ pair ∈ pairs, Same pair.1 pair.2) :
    Same (.list (pairs.map Prod.fst)) (.list (pairs.map Prod.snd))
  | object {pairs : List ((List Part × Datum) × (List Part × Datum))}
      {members : List (List Part × Datum)}
      (names : ∀ pair ∈ pairs, Text.units pair.1.1 = Text.units pair.2.1)
      (each : ∀ pair ∈ pairs, Same pair.1.2 pair.2.2)
      (order : (pairs.map Prod.snd).Perm members) :
    Same (.object (pairs.map Prod.fst)) (.object members)

namespace Same

theorem emptyList : Same (.list []) (.list []) :=
  @list [] nofun

theorem list_cons {first second : Datum} {rest others : List Datum} (same : first.Same second)
    (alike : Same (.list rest) (.list others)) :
    Same (.list (first :: rest)) (.list (second :: others)) := by
  cases alike with
  | @list pairs each =>
    exact @list ((first, second) :: pairs) (List.forall_mem_cons.mpr ⟨same, each⟩)

theorem emptyObject : Same (.object []) (.object []) :=
  @object [] [] nofun nofun (.refl _)

theorem object_cons {name other : List Part} {first second : Datum}
    {rest others : List (List Part × Datum)} (units : Text.units name = Text.units other)
    (same : first.Same second) (alike : Same (.object rest) (.object others)) :
    Same (.object ((name, first) :: rest)) (.object ((other, second) :: others)) := by
  cases alike with
  | @object pairs _ names each order =>
    exact @object (((name, first), (other, second)) :: pairs) _
      (List.forall_mem_cons.mpr ⟨units, names⟩) (List.forall_mem_cons.mpr ⟨same, each⟩)
      (order.cons _)

theorem reorder {members others last : List (List Part × Datum)}
    (same : Same (.object members) (.object others)) (order : others.Perm last) :
    Same (.object members) (.object last) := by
  cases same with
  | object names each already => exact .object names each (already.trans order)

mutual

theorem refl : (datum : Datum) → datum.Same datum
  | .null => .null
  | .boolean _ => .boolean _
  | .number _ => .number _
  | .text _ => .text rfl
  | .list elements => refl_list elements
  | .object members => refl_object members

theorem refl_list : (elements : List Datum) → Same (.list elements) (.list elements)
  | [] => .emptyList
  | element :: rest => .list_cons (refl element) (refl_list rest)

theorem refl_object :
    (members : List (List Part × Datum)) → Same (.object members) (.object members)
  | [] => .emptyObject
  | (_, member) :: rest => .object_cons rfl (refl member) (refl_object rest)

end

end Same

/-- The names of members as units. -/
def names (members : List (List Part × Datum)) : List (List Nat) :=
  members.map fun member => Text.units member.1

/-- No object has two members with the same name. -/
inductive Distinct : Datum → Prop
  | null : Distinct .null
  | boolean (value : Bool) : Distinct (.boolean value)
  | number (numeral : Numeral) : Distinct (.number numeral)
  | text (parts : List Part) : Distinct (.text parts)
  | list {elements : List Datum} (each : ∀ element ∈ elements, Distinct element) :
    Distinct (.list elements)
  | object {members : List (List Part × Datum)} (once : (names members).Nodup)
      (each : ∀ member ∈ members, Distinct member.2) : Distinct (.object members)

/-- Two texts denote the same value, and no object in it has two members with the same name. -/
def SameText (first second : String) : Prop :=
  ∃ value other : Datum, value.Spells first.toList ∧ other.Spells second.toList ∧
    value.Same other ∧ value.Distinct

/-! ## Trees -/

/-- The text that the parts of a string denote. -/
def textOf (parts : List Part) : Except Fault String :=
  Token.decoded none (parts.map Part.piece)

mutual

/-- The tree of a datum. -/
def tree : Datum → Tree
  | null => .null
  | boolean value => .boolean value
  | number numeral => .number numeral.number
  | text parts => .text (textOf parts)
  | list elements => .list (trees elements) .closed
  | object members => .object (memberTrees members) .closed

/-- The trees of elements in order. -/
def trees : List Datum → List Tree
  | [] => []
  | element :: rest => tree element :: trees rest

/-- The names and trees of members in order. -/
def memberTrees : List (List Part × Datum) → List (Except Fault String × Tree)
  | [] => []
  | (name, member) :: rest => (textOf name, tree member) :: memberTrees rest

end

/-- The name and the tree of a member. -/
def memberTree (member : List Part × Datum) : Except Fault String × Tree :=
  (textOf member.1, member.2.tree)

theorem trees_eq_map (elements : List Datum) : trees elements = elements.map tree := by
  induction elements with
  | nil => rfl
  | cons element rest ih => rw [trees, ih, List.map_cons]

theorem memberTrees_eq_map (members : List (List Part × Datum)) :
    memberTrees members = members.map memberTree := by
  induction members with
  | nil => rfl
  | cons member rest ih =>
    rw [memberTrees, ih, List.map_cons]
    rfl

@[simp] theorem tree_list (elements : List Datum) :
    tree (.list elements) = .list (elements.map tree) .closed := by
  rw [tree, trees_eq_map]

@[simp] theorem tree_object (members : List (List Part × Datum)) :
    tree (.object members) = .object (members.map memberTree) .closed := by
  rw [tree, memberTrees_eq_map]

mutual

theorem closed_tree : (datum : Datum) → datum.tree.Closed
  | .null => .null
  | .boolean _ => .boolean _
  | .number _ => .number _
  | .text _ => .text _
  | .list elements => by
    rw [tree]
    exact .list (closed_trees elements)
  | .object members => by
    rw [tree]
    exact .object (closed_memberTrees members)

theorem closed_trees : (elements : List Datum) → ∀ tree ∈ trees elements, tree.Closed
  | [] => nofun
  | element :: rest => List.forall_mem_cons.mpr ⟨closed_tree element, closed_trees rest⟩

theorem closed_memberTrees :
    (members : List (List Part × Datum)) → ∀ member ∈ memberTrees members, member.2.Closed
  | [] => nofun
  | (_, member) :: rest =>
    List.forall_mem_cons.mpr ⟨closed_tree member, closed_memberTrees rest⟩

end

/-! ## Parsing -/

/-- The characters of a datum spell the tokens of its tree. -/
theorem Spells.lexes {datum : Datum} {chars : List Char} (spelled : datum.Spells chars) :
    Lexes chars datum.tree.tokens := by
  induction spelled with
  | null => exact .single rfl fun _ _ => rfl
  | boolean value => cases value <;> exact .single rfl fun _ _ => rfl
  | number spelled => exact Token.lexes_numeral spelled
  | text spelled => exact Token.lexes_text spelled
  | emptyList blank =>
    have spelled := Lexes.closeList.padded blank (nofun : Blank [])
    exact spelled.cons rfl fun _ => rfl
  | @list elements some each ih =>
    have inside := Lexes.intercalate ih
    rw [tree_list, Tree.tokens, Tree.tokensList_eq_intercalate, List.map_map, List.map_map]
    exact (inside.append (Token.ends_separator (.inr (.inr (.inl rfl))) _) .closeList).cons rfl
      fun _ => rfl
  | emptyObject blank =>
    have spelled := Lexes.closeObject.padded blank (nofun : Blank [])
    exact spelled.cons rfl fun _ => rfl
  | @object members some names each ihNames ih =>
    have inside : ∀ member ∈ members, Lexes (member.1.2 ++ ':' :: member.2.2)
        (Tree.memberTokens (memberTree (member.1.1, member.2.1))) := fun member among =>
      (ihNames member among).append (Token.ends_separator (.inr (.inl rfl)) _)
        ((ih member among).cons rfl fun _ => rfl)
    have joined := Lexes.intercalate inside
    rw [tree_object, Tree.tokens, Tree.tokensMembers_eq_intercalate, List.map_map, List.map_map]
    exact (joined.append (Token.ends_separator (.inr (.inr (.inr rfl))) _) .closeObject).cons rfl
      fun _ => rfl
  | blanks inFront behind spelled ih => exact ih.padded inFront behind

/-- A text that spells a datum is parsed as its tree, and nothing follows it. -/
theorem Spells.ofText {datum : Datum} {source : String} (spelled : datum.Spells source.toList) :
    Tree.ofText source = (datum.tree, false) := by
  rw [Tree.ofText, spelled.lexes.lex_eq, (closed_tree datum).parse]
  rfl

end Datum
end OperatorGen.Json
