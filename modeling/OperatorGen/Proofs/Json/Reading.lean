import OperatorGen.Json.Tree
import OperatorGen.Proofs.Json.Value

/-!
# Values that are read

A value that is read from a text nests within the room where it stands, and its whole
numbers are in range (`within_of_value`). The numbers come from tokens, so the range is
carried from the lexemes to the tokens of a text, and by the parser on to its tree.
-/
namespace OperatorGen.Json

/-! ## Tokens -/

namespace Token

/-- A number that is a token is in range if it is whole. -/
def InRange (token : Token) : Prop :=
  ∀ n, token = .number (.ok n) → n.InRange

theorem inRange_word {token : Token} {letters rest : List Char} (other : token.InRange) :
    (word token letters rest).1.InRange := by
  unfold word
  split
  · exact other
  · exact nofun

theorem inRange_numeral (chars : List Char) : (numeral chars).1.InRange := by
  unfold numeral
  split
  · next n _ _ =>
    intro value same
    exact Numeral.inRange_of_number (Token.number.inj same)
  · exact nofun

theorem inRange_quoted (chars : List Char) : (quoted chars).1.InRange := by
  unfold quoted
  split
  · exact nofun
  · split <;> exact nofun

theorem inRange_lexeme (c : Char) (rest : List Char) : (lexeme c rest).1.InRange := by
  unfold lexeme
  split
  case h_7 => exact inRange_word nofun
  case h_8 => exact inRange_word nofun
  case h_9 => exact inRange_word nofun
  case h_10 => exact inRange_quoted _
  case h_11 =>
    split
    · exact inRange_numeral _
    · exact nofun
  all_goals exact nofun

/-- The whole numbers of a text are in range. -/
theorem inRange_lexWith (fuel : Nat) (chars : List Char) :
    ∀ token ∈ lexWith fuel chars, token.InRange := by
  induction fuel generalizing chars with
  | zero => intro token member; cases member
  | succ fuel ih =>
    rw [lexWith]
    split
    · intro token member; cases member
    · next c rest _ =>
      intro token member
      rcases List.mem_cons.mp member with rfl | later
      · exact inRange_lexeme c rest
      · exact ih _ token later

end Token

/-! ## Trees -/

namespace Tree

/-- The whole numbers of a tree are in range. -/
inductive InRange : Tree → Prop
  | null : InRange .null
  | boolean (value : Bool) : InRange (.boolean value)
  | number {value : Except Fault Number} (fits : ∀ n, value = .ok n → n.InRange) :
    InRange (.number value)
  | text (value : Except Fault String) : InRange (.text value)
  | list {elements : List Tree} (ending : ListEnd) (each : ∀ element ∈ elements, InRange element) :
    InRange (.list elements ending)
  | object {members : List (Except Fault String × Tree)} (ending : ObjectEnd)
      (each : ∀ member ∈ members, InRange member.2) : InRange (.object members ending)
  | broken (reading skipping : Fault) : InRange (.broken reading skipping)
  | missing : InRange .missing

/-- What is left of tokens after a step is among them. -/
theorem afterElement_subset {tokens rest : List Token} {ending : ListEnd}
    (ended : afterElement tokens = .inl (ending, rest)) : rest ⊆ tokens := by
  unfold afterElement at ended
  split at ended <;> cases ended <;> simp

theorem afterElement_more_subset {tokens rest : List Token}
    (more : afterElement tokens = .inr rest) : rest ⊆ tokens := by
  unfold afterElement at more
  split at more <;> cases more
  simp

theorem afterMember_subset {tokens rest : List Token} {ending : ObjectEnd}
    (ended : afterMember tokens = .inl (ending, rest)) : rest ⊆ tokens := by
  unfold afterMember at ended
  split at ended <;> cases ended <;> simp

theorem afterMember_more_subset {tokens rest : List Token}
    (more : afterMember tokens = .inr rest) : rest ⊆ tokens := by
  unfold afterMember at more
  split at more <;> cases more
  simp

/-- The parser, given some fuel, makes trees whose numbers are those of the tokens. -/
structure Keeps (fuel : Nat) : Prop where
  value : ∀ tokens, (∀ token ∈ tokens, token.InRange) →
    (parseValue fuel tokens).1.InRange ∧ (parseValue fuel tokens).2 ⊆ tokens
  elements : ∀ tokens, (∀ token ∈ tokens, token.InRange) →
    (∀ element ∈ (parseElements fuel tokens).1, element.InRange) ∧
      (parseElements fuel tokens).2.2 ⊆ tokens
  members : ∀ tokens, (∀ token ∈ tokens, token.InRange) →
    (∀ member ∈ (parseMembers fuel tokens).1, member.2.InRange) ∧
      (parseMembers fuel tokens).2.2 ⊆ tokens

theorem keeps_zero : Keeps 0 where
  value _ _ := ⟨.missing, List.nil_subset _⟩
  elements _ _ := ⟨nofun, List.nil_subset _⟩
  members _ _ := ⟨nofun, List.nil_subset _⟩

theorem Keeps.value_succ {fuel : Nat} (keeps : Keeps fuel) {tokens : List Token}
    (inRange : ∀ token ∈ tokens, token.InRange) :
    (parseValue (fuel + 1) tokens).1.InRange ∧ (parseValue (fuel + 1) tokens).2 ⊆ tokens := by
  cases tokens with
  | nil => exact ⟨.missing, List.nil_subset _⟩
  | cons token rest =>
    have later : ∀ token ∈ rest, token.InRange :=
      fun token member => inRange token (List.mem_cons_of_mem _ member)
    cases token with
    | null => exact ⟨.null, List.subset_cons_self _ _⟩
    | boolean value => exact ⟨.boolean value, List.subset_cons_self _ _⟩
    | text value => exact ⟨.text value, List.subset_cons_self _ _⟩
    | number value =>
      refine ⟨.number fun n denoted => ?_, List.subset_cons_self _ _⟩
      exact inRange _ List.mem_cons_self n (by rw [denoted])
    | openList =>
      obtain ⟨each, left⟩ := keeps.elements rest later
      unfold parseValue
      simp only
      split
      · exact ⟨.list _ nofun, List.nil_subset _⟩
      · exact ⟨.list _ nofun, fun token member => by simp [member]⟩
      · exact ⟨.list _ each, fun token member => List.mem_cons_of_mem _ (left member)⟩
    | openObject =>
      obtain ⟨each, left⟩ := keeps.members rest later
      unfold parseValue
      simp only
      split
      · exact ⟨.object _ nofun, List.nil_subset _⟩
      · exact ⟨.object _ nofun, fun token member => by simp [member]⟩
      · exact ⟨.object _ each, fun token member => List.mem_cons_of_mem _ (left member)⟩
    | _ => exact ⟨.broken _ _, List.nil_subset _⟩

theorem Keeps.elements_succ {fuel : Nat} (keeps : Keeps fuel) {tokens : List Token}
    (inRange : ∀ token ∈ tokens, token.InRange) :
    (∀ element ∈ (parseElements (fuel + 1) tokens).1, element.InRange) ∧
      (parseElements (fuel + 1) tokens).2.2 ⊆ tokens := by
  obtain ⟨first, left⟩ := keeps.value tokens inRange
  unfold parseElements
  simp only
  split
  · next ended =>
    refine ⟨fun element member => ?_, List.Subset.trans (afterElement_subset ended) left⟩
    obtain rfl := List.mem_singleton.mp member
    exact first
  · next rest more =>
    have among := List.Subset.trans (afterElement_more_subset more) left
    obtain ⟨others, behind⟩ := keeps.elements rest fun token member =>
      inRange token (among member)
    exact ⟨List.forall_mem_cons.mpr ⟨first, others⟩, List.Subset.trans behind among⟩

theorem Keeps.members_succ {fuel : Nat} (keeps : Keeps fuel) {tokens : List Token}
    (inRange : ∀ token ∈ tokens, token.InRange) :
    (∀ member ∈ (parseMembers (fuel + 1) tokens).1, member.2.InRange) ∧
      (parseMembers (fuel + 1) tokens).2.2 ⊆ tokens := by
  cases tokens with
  | nil => exact ⟨nofun, List.nil_subset _⟩
  | cons token rest =>
    have later : ∀ token ∈ rest, token.InRange :=
      fun token member => inRange token (List.mem_cons_of_mem _ member)
    cases token with
    | text name =>
      -- A name is followed by a colon and a value, or its member is broken.
      have broken : ∀ {reading skipping : Fault},
          ∀ member ∈ [(name, Tree.broken reading skipping)], member.2.InRange := by
        intro reading skipping member inside
        obtain rfl := List.mem_singleton.mp inside
        exact .broken _ _
      cases rest with
      | nil => exact ⟨broken, List.nil_subset _⟩
      | cons second rest =>
        cases second with
        | colon =>
          have behind : ∀ token ∈ rest, token.InRange :=
            fun token member => later token (List.mem_cons_of_mem _ member)
          obtain ⟨first, left⟩ := keeps.value rest behind
          unfold parseMembers
          simp only
          split
          · next ended =>
            refine ⟨fun member inside => ?_, fun token member => ?_⟩
            · obtain rfl := List.mem_singleton.mp inside
              exact first
            · simp [left (afterMember_subset ended member)]
          · next rest' more =>
            have among := List.Subset.trans (afterMember_more_subset more) left
            obtain ⟨others, after⟩ := keeps.members rest' fun token member =>
              behind token (among member)
            refine ⟨List.forall_mem_cons.mpr ⟨first, others⟩, fun token member => ?_⟩
            simp [among (after member)]
        | _ => exact ⟨broken, List.nil_subset _⟩
    | _ => exact ⟨nofun, List.nil_subset _⟩

theorem keeps (fuel : Nat) : Keeps fuel := by
  induction fuel with
  | zero => exact keeps_zero
  | succ fuel ih =>
    exact ⟨fun _ => ih.value_succ, fun _ => ih.elements_succ, fun _ => ih.members_succ⟩

/-- The whole numbers of the tree of a text are in range. -/
theorem inRange_ofText (source : String) : (ofText source).1.InRange := by
  unfold ofText parse Token.lex
  exact ((keeps _).value _ (Token.inRange_lexWith _ _)).1

/-! ## Values -/

theorem mem_of_valueList {room : Nat} {elements : List Tree} {values : List Value}
    (read : valueList room elements = .ok values) {value : Value} (member : value ∈ values) :
    ∃ element ∈ elements, Tree.value room element = .ok value := by
  induction elements generalizing values with
  | nil => cases read; cases member
  | cons element rest ih =>
    simp only [valueList, bind_ok_iff] at read
    obtain ⟨first, head, others, tail, same⟩ := read
    cases same
    rcases List.mem_cons.mp member with rfl | later
    · exact ⟨element, List.mem_cons_self, head⟩
    · obtain ⟨e, inside, found⟩ := ih tail later
      exact ⟨e, List.mem_cons_of_mem _ inside, found⟩

theorem mem_of_valueMembers {room : Nat} {members : List (Except Fault String × Tree)}
    {values : List (String × Value)} (read : valueMembers room members = .ok values)
    {entry : String × Value} (member : entry ∈ values) :
    ∃ m ∈ members, Tree.value room m.2 = .ok entry.2 := by
  induction members generalizing values with
  | nil => cases read; cases member
  | cons m rest ih =>
    simp only [valueMembers, bind_ok_iff] at read
    obtain ⟨name, -, first, head, others, tail, same⟩ := read
    cases same
    rcases List.mem_cons.mp member with rfl | later
    · exact ⟨m, List.mem_cons_self, head⟩
    · obtain ⟨e, inside, found⟩ := ih tail later
      exact ⟨e, List.mem_cons_of_mem _ inside, found⟩

theorem enter_ok_iff {room inner : Nat} :
    enter room = .ok inner ↔ ∃ below, room = below + 2 ∧ inner = below + 1 := by
  unfold enter
  split
  · simp only [reduceCtorEq, false_iff, not_exists, not_and]
    omega
  · simp only [Except.ok.injEq]
    constructor
    · rintro rfl
      exact ⟨room - 2, by omega, by omega⟩
    · rintro ⟨below, rfl, rfl⟩
      rfl

/-- A value that is read nests within the room, and its whole numbers are in range. -/
theorem within_of_value {tree : Tree} (inRange : tree.InRange) {room : Nat} {value : Value}
    (read : Tree.value room tree = .ok value) : Value.Within Number.InRange room value := by
  induction inRange generalizing room value with
  | null => cases read; exact .null
  | boolean b => cases read; exact .boolean b
  | number fits =>
    obtain ⟨n, denoted, rfl⟩ := map_ok_iff.mp read
    exact .number (fits n denoted)
  | text t =>
    obtain ⟨s, -, rfl⟩ := map_ok_iff.mp read
    exact .text s
  | list ending each ih =>
    simp only [Tree.value, bind_ok_iff] at read
    obtain ⟨inner, entered, values, found, _, -, same⟩ := read
    obtain ⟨below, rfl, rfl⟩ := enter_ok_iff.mp entered
    cases same
    refine .list fun value member => ?_
    obtain ⟨element, inside, denoted⟩ := mem_of_valueList found member
    exact ih element inside denoted
  | object ending each ih =>
    simp only [Tree.value, bind_ok_iff] at read
    obtain ⟨inner, entered, values, found, _, -, same⟩ := read
    obtain ⟨below, rfl, rfl⟩ := enter_ok_iff.mp entered
    cases same
    refine .object fun entry member => ?_
    obtain ⟨m, inside, denoted⟩ := mem_of_valueMembers found member
    exact ih m inside denoted
  | broken reading skipping => cases read
  | missing => cases read

end Tree
end OperatorGen.Json
