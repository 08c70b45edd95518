import OperatorGen.Proofs.Json.Closed
import OperatorGen.Proofs.Json.Text
import OperatorGen.Proofs.Json.Value

/-!
# Written values

A value that is written is read back from its text. The text spells the tokens of the value
(`lexes_write`), they are those of its tree, which is closed (`tokens_ofValue`), and the tree
is read as the value if the value nests within the room (`value_ofValue`).
-/
namespace OperatorGen.Json

/-! ## Tokens of a value -/

namespace Value

mutual

/-- The tokens of a value. -/
def tokens : Value → List Token
  | null => [.null]
  | boolean value => [.boolean value]
  | number value => [.number (.ok value)]
  | text value => [.text (.ok value)]
  | list elements => .openList :: (tokensList elements ++ [.closeList])
  | object members => .openObject :: (tokensMembers members ++ [.closeObject])

/-- The tokens of elements, with commas between them. -/
def tokensList : List Value → List Token
  | [] => []
  | [element] => tokens element
  | element :: rest => tokens element ++ .comma :: tokensList rest

/-- The tokens of members, with commas between them. -/
def tokensMembers : List (String × Value) → List Token
  | [] => []
  | [(name, value)] => .text (.ok name) :: .colon :: tokens value
  | (name, value) :: rest =>
    .text (.ok name) :: .colon :: (tokens value ++ .comma :: tokensMembers rest)

end

end Value

/-! ## Spelling of values -/

namespace Token

open Value (Within)

theorem lexes_number {n : Number} (word : n.IsWord) :
    Lexes n.text.toList [.number (.ok n)] := by
  obtain ⟨numeral, spelled, denoted⟩ := exists_spells_text word
  rw [← denoted]
  exact lexes_numeral spelled

theorem lexes_writeList {elements : List Value}
    (each : ∀ element ∈ elements, Lexes element.write.toList element.tokens) :
    Lexes (Value.writeList elements).toList (Value.tokensList elements) := by
  induction elements with
  | nil => exact .nil
  | cons element rest ih =>
    have first := each element List.mem_cons_self
    have others := ih fun e member => each e (List.mem_cons_of_mem _ member)
    cases rest with
    | nil => exact first
    | cons second rest =>
      have spelling : (Value.writeList (element :: second :: rest)).toList =
          element.write.toList ++ ',' :: (Value.writeList (second :: rest)).toList := by
        simp [Value.writeList]
      rw [spelling]
      exact first.append (ends_separator (.inl rfl) _) (others.cons rfl fun _ => rfl)

theorem lexes_writeMember {name : String} {value : Value}
    (spelled : Lexes value.write.toList value.tokens) :
    Lexes ((Text.quote name).toList ++ ':' :: value.write.toList)
      (.text (.ok name) :: .colon :: value.tokens) :=
  (lexes_quote name).append (ends_separator (.inr (.inl rfl)) _) (spelled.cons rfl fun _ => rfl)

theorem lexes_writeMembers {members : List (String × Value)}
    (each : ∀ member ∈ members, Lexes member.2.write.toList member.2.tokens) :
    Lexes (Value.writeMembers members).toList (Value.tokensMembers members) := by
  induction members with
  | nil => exact .nil
  | cons member rest ih =>
    obtain ⟨name, value⟩ := member
    have first : Lexes ((Text.quote name).toList ++ ':' :: value.write.toList) _ :=
      lexes_writeMember (each (name, value) List.mem_cons_self)
    have others := ih fun m inside => each m (List.mem_cons_of_mem _ inside)
    cases rest with
    | nil =>
      have spelling : (Value.writeMembers [(name, value)]).toList =
          (Text.quote name).toList ++ ':' :: value.write.toList := by
        simp [Value.writeMembers]
      rw [spelling]
      exact first
    | cons second rest =>
      have spelling : (Value.writeMembers ((name, value) :: second :: rest)).toList =
          ((Text.quote name).toList ++ ':' :: value.write.toList) ++
            ',' :: (Value.writeMembers (second :: rest)).toList := by
        simp [Value.writeMembers]
      rw [spelling]
      exact first.append (ends_separator (.inl rfl) _) (others.cons rfl fun _ => rfl)

/-- The text of a value spells the tokens of the value. -/
theorem lexes_write {room : Nat} {value : Value} (within : Within Number.IsWord room value) :
    Lexes value.write.toList value.tokens := by
  induction within with
  | null => exact .single rfl fun _ _ => rfl
  | boolean value => cases value <;> exact .single rfl fun _ _ => rfl
  | number word => exact lexes_number word
  | text value => exact lexes_quote value
  | @list _ elements each ih =>
    have spelling : (Value.list elements).write.toList =
        '[' :: ((Value.writeList elements).toList ++ [']']) := by
      simp [Value.write]
    rw [spelling]
    exact ((lexes_writeList ih).append (ends_separator (.inr (.inr (.inl rfl))) _) .closeList).cons rfl
      fun _ => rfl
  | @object _ members each ih =>
    have spelling : (Value.object members).write.toList =
        '\x7b' :: ((Value.writeMembers members).toList ++ ['\x7d']) := by
      simp [Value.write]
    rw [spelling]
    exact ((lexes_writeMembers ih).append (ends_separator (.inr (.inr (.inr rfl))) _) .closeObject).cons rfl
      fun _ => rfl

end Token

/-! ## Trees of values -/

namespace Tree

open Value (Within)

mutual

/-- The tree of a text in which a value is written. -/
def ofValue : Value → Tree
  | .null => null
  | .boolean value => boolean value
  | .number value => number (.ok value)
  | .text value => text (.ok value)
  | .list elements => list (ofList elements) .closed
  | .object members => object (ofMembers members) .closed

/-- The trees of elements in order. -/
def ofList : List Value → List Tree
  | [] => []
  | element :: rest => ofValue element :: ofList rest

/-- The names and trees of members in order. -/
def ofMembers : List (String × Value) → List (Except Fault String × Tree)
  | [] => []
  | (name, value) :: rest => (.ok name, ofValue value) :: ofMembers rest

end

theorem ofList_eq_map (elements : List Value) : ofList elements = elements.map ofValue := by
  induction elements with
  | nil => rfl
  | cons element rest ih => rw [ofList, ih, List.map_cons]

theorem ofMembers_eq_map (members : List (String × Value)) :
    ofMembers members = members.map fun member => (.ok member.1, ofValue member.2) := by
  induction members with
  | nil => rfl
  | cons member rest ih => rw [ofMembers, ih, List.map_cons]

theorem closed_ofValue {kind : Number → Prop} {room : Nat} {value : Value}
    (within : Within kind room value) : (ofValue value).Closed := by
  induction within with
  | null => exact .null
  | boolean value => exact .boolean value
  | number => exact .number _
  | text value => exact .text _
  | list each ih =>
    rw [ofValue, ofList_eq_map]
    exact .list (List.forall_mem_map.mpr ih)
  | object each ih =>
    rw [ofValue, ofMembers_eq_map]
    exact .object (List.forall_mem_map.mpr ih)

theorem tokensList_ofList {elements : List Value}
    (each : ∀ element ∈ elements, (ofValue element).tokens = element.tokens) :
    tokensList (ofList elements) = Value.tokensList elements := by
  induction elements with
  | nil => rfl
  | cons element rest ih =>
    obtain ⟨first, others⟩ := List.forall_mem_cons.mp each
    cases rest with
    | nil => exact first
    | cons second rest =>
      have later := ih others
      rw [ofList] at later
      rw [ofList, ofList, tokensList_cons_cons, first, Value.tokensList, later]
      exact nofun

theorem tokensMembers_ofMembers {members : List (String × Value)}
    (each : ∀ member ∈ members, (ofValue member.2).tokens = member.2.tokens) :
    tokensMembers (ofMembers members) = Value.tokensMembers members := by
  induction members with
  | nil => rfl
  | cons member rest ih =>
    obtain ⟨first, others⟩ := List.forall_mem_cons.mp each
    cases rest with
    | nil => rw [ofMembers, ofMembers, tokensMembers, first, Value.tokensMembers]
    | cons second rest =>
      have later := ih others
      rw [ofMembers] at later
      rw [ofMembers, ofMembers, tokensMembers_cons_cons, memberTokens, first, Value.tokensMembers,
        later]
      · rfl
      · exact List.cons_ne_nil second rest

/-- The tree of a value is made of the tokens of the value. -/
theorem tokens_ofValue {kind : Number → Prop} {room : Nat} {value : Value}
    (within : Within kind room value) : (ofValue value).tokens = value.tokens := by
  induction within with
  | list each ih => rw [ofValue, tokens, tokensList_ofList ih, Value.tokens]
  | object each ih => rw [ofValue, tokens, tokensMembers_ofMembers ih, Value.tokens]
  | _ => rfl

/-- The tree of the text of a value, and nothing follows it. -/
theorem ofText_write {room : Nat} {value : Value} (within : Within Number.IsWord room value) :
    ofText value.write = (ofValue value, false) := by
  rw [ofText, (Token.lexes_write within).lex_eq, ← tokens_ofValue within,
    (closed_ofValue within).parse]
  rfl

/-! ## Reading the trees of values -/

theorem enter_succ (room : Nat) : enter (room + 2) = .ok (room + 1) := by
  rw [enter, if_neg (by omega)]
  rfl

theorem valueList_ofValue {room : Nat} {elements : List Value}
    (each : ∀ element ∈ elements, value room (ofValue element) = .ok element) :
    valueList room (elements.map ofValue) = .ok elements := by
  induction elements with
  | nil => rfl
  | cons element rest ih =>
    have first := each element List.mem_cons_self
    have others := ih fun e member => each e (List.mem_cons_of_mem _ member)
    simp only [List.map_cons, valueList, first, others]
    rfl

theorem valueMembers_ofValue {room : Nat} {members : List (String × Value)}
    (each : ∀ member ∈ members, value room (ofValue member.2) = .ok member.2) :
    valueMembers room (members.map fun member => (.ok member.1, ofValue member.2)) =
      .ok members := by
  induction members with
  | nil => rfl
  | cons member rest ih =>
    have first := each member List.mem_cons_self
    have others := ih fun m inside => each m (List.mem_cons_of_mem _ inside)
    simp only [List.map_cons, valueMembers, first, others]
    rfl

/-- The tree of a value that nests within the room is read as the value. -/
theorem value_ofValue {kind : Number → Prop} {room : Nat} {value : Value}
    (within : Within kind room value) : Tree.value room (ofValue value) = .ok value := by
  induction within with
  | list each ih =>
    rw [ofValue, Tree.value, enter_succ, ofList_eq_map]
    simp only [bind, Except.bind, valueList_ofValue ih]
    rfl
  | object each ih =>
    rw [ofValue, Tree.value, enter_succ, ofMembers_eq_map]
    simp only [bind, Except.bind, valueMembers_ofValue ih]
    rfl
  | _ => rfl

end Tree
end OperatorGen.Json
