import OperatorGen.Proofs.Definition.Meaning
import OperatorGen.Proofs.Json.Buffering
import OperatorGen.Proofs.Json.Ensures

/-!
# Nodes as items

A node is decoded where it stands, in a text or in a value. An item is read as a value first, and
its members are sorted before it is decoded. Both ways give the same node, as long as no object
has a name twice: every kind of node looks at members by their names, at any depth
(`Node.agrees_decoder`), and what stands beside the kind is read as a value in any case
(`Node.buffers_decoder`).
-/
namespace OperatorGen

open Json (Datum Decoder Fields Sorts Value)
open Json.Fields (agrees_field agrees_tagged buffers_tagged partAgrees_of_decoder)
open Json.Source (Any)
open Json.Text (Part)
open Json.Value (names)

/-! ## Fields -/

theorem Ident.agrees_decoder : Ident.decoder.Agrees Sorts :=
  Decoder.agrees_text.map Ident.mk

theorem agrees_identField : identField.Agrees Sorts ["ident"] :=
  agrees_field Ident.agrees_decoder "ident" none

theorem agrees_textField (name : String) : (textField name).Agrees Sorts [name] :=
  agrees_field Decoder.agrees_text name (some "")

theorem agrees_optionalTextField (name : String) : (optionalTextField name).Agrees Sorts [name] :=
  agrees_field Decoder.agrees_optionalText name (some none)

theorem agrees_flagField (name : String) : (flagField name).Agrees Sorts [name] :=
  agrees_field Decoder.agrees_boolean name (some false)

theorem agrees_listField {α : Type} {element : Decoder α} (agrees : element.Agrees Sorts)
    (name : String) : (listField name element).Agrees Sorts [name] :=
  agrees_field agrees.list name (some [])

theorem agrees_noFields : noFields.Agrees Sorts [] where
  knows key source draft := by simp [noFields]
  member name draft both := rfl
  element position draft both := rfl
  commute source another draft different := rfl

/-! ## Rules -/

/-- An object without members has none when it is sorted, and any other still has some. -/
theorem Rule.agrees_readNothing (emptyObject : Bool) :
    Decoder.Agrees (readNothing emptyObject) Sorts := by
  rintro _ _ ⟨distinct⟩
  cases distinct with
  | list each => rw [Value.sorted_list]; rfl
  | @object members once each =>
    have length := Value.length_arranged once
    rw [Value.sorted_object, ← Value.arranged]
    cases members with
    | nil => rfl
    | cons first rest =>
      cases sorted : Value.arranged (first :: rest) with
      | nil => rw [sorted] at length; cases length
      | cons head tail => rfl
  | _ => rfl

theorem Rule.readValue_object_of_ne {members : List (String × Value)} (several : members.length ≠ 1)
    (emptyObject : Bool) : readValue emptyObject (.object members) =
      .error (.wrongValue .object .singleMember) := by
  match members with
  | [] => rfl
  | [_] => exact absurd rfl several
  | _ :: _ :: _ => rfl

/-- An object with one member has it when it is sorted, and any other is no rule. -/
theorem Rule.agrees_decoder (emptyObject : Bool) : (Rule.decoder emptyObject).Agrees Sorts := by
  rintro _ _ ⟨distinct⟩
  cases distinct with
  | list each => rw [Value.sorted_list]; rfl
  | @object members once each =>
    rw [Value.sorted_object]
    by_cases one : members.length = 1
    · obtain ⟨⟨name, nothing⟩, rfl⟩ := List.length_eq_one_iff.mp one
      have inside : nothing.Distinct := each _ List.mem_cons_self
      have alone : Value.sortMembers [(name, nothing.sorted)] = [(name, nothing.sorted)] := rfl
      rw [List.map_singleton, alone]
      simp only [decoder, readValue, toOption_bind, agrees_readNothing emptyObject (.intro inside)]
    · have several : (Value.arranged members).length ≠ 1 := by
        rwa [Value.length_arranged once]
      rw [decoder, decoder, ← Value.arranged, readValue_object_of_ne one,
        readValue_object_of_ne several]
  | _ => rfl

/-! ## Records -/

theorem agrees_textsField (name : String) :
    (listField name Decoder.text).Agrees Sorts [name] :=
  agrees_listField Decoder.agrees_text name

theorem Argument.agrees_fields : Argument.fields.Agrees Sorts
    ["ident", "name", "cv_type", "data_type", "description", "init_in", "init_out"] :=
  (agrees_identField.and <| (agrees_textField "name").and <| (agrees_textField "cv_type").and <|
    (agrees_textField "data_type").and <| (agrees_textField "description").and <|
      (agrees_textsField "init_in").and (agrees_textsField "init_out")).map _

theorem Constant.agrees_fields : Constant.fields.Agrees Sorts ["ident", "cv_type", "value"] :=
  (agrees_identField.and <| (agrees_field Decoder.agrees_text "cv_type" none).and
    (agrees_field Decoder.agrees_text "value" none)).map _

theorem Parameter.agrees_ownFields (emptyObject : Bool) :
    (Parameter.ownFields emptyObject).Agrees Sorts ["in_place", "is_init", "default", "rules"] :=
  (agrees_flagField "in_place").and <| (agrees_flagField "is_init").and <|
    (agrees_optionalTextField "default").and <|
      agrees_listField (Rule.agrees_decoder emptyObject) "rules"

theorem Parameter.agrees_decoder (emptyObject : Bool) :
    (Parameter.decoder emptyObject).Agrees Sorts :=
  ((agrees_ownFields emptyObject).flattened Argument.agrees_fields.part "Parameter").map ofParts

theorem NumericParameter.agrees_ownFields :
    NumericParameter.ownFields.Agrees Sorts ["min_value", "max_value", "step"] :=
  (agrees_optionalTextField "min_value").and <|
    (agrees_optionalTextField "max_value").and (agrees_optionalTextField "step")

theorem NumericParameter.agrees_decoder : NumericParameter.decoder.Agrees Sorts :=
  (agrees_ownFields.flattened (partAgrees_of_decoder (Parameter.agrees_decoder false))
    "NumericParameter").map ofParts

theorem EnumDescription.agrees_decoder : EnumDescription.decoder.Agrees Sorts :=
  ((agrees_identField.and <| (agrees_textField "name").and
    (agrees_optionalTextField "cv_ident")).map _).record "Raw"

theorem EnumParameter.agrees_decoder : EnumParameter.decoder.Agrees Sorts :=
  ((agrees_identField.and <| (agrees_textField "name").and <|
    (agrees_textField "description").and <| (agrees_textsField "init_in").and <|
      (agrees_textsField "init_out").and <| (Parameter.agrees_ownFields true).and <|
        agrees_listField EnumDescription.agrees_decoder "descriptions").map _).record "Raw"

theorem agrees_argumentBeside {α : Type} {own : Fields α} {known : List String}
    (agrees : own.Agrees Sorts known) (name : String) :
    (argumentBeside name own).Agrees Sorts :=
  agrees.flattened Argument.agrees_fields.part name

/-! ## Nodes -/

/-- Every kind of node looks at members by their names. -/
theorem Node.agrees_kinds : ∀ entry ∈ Node.kinds, entry.2.Agrees Sorts := by
  have target : (Fields.required "ref_arg" Ident.decoder).Agrees Sorts ["ref_arg"] :=
    agrees_field Ident.agrees_decoder "ref_arg" none
  simp only [kinds, List.forall_mem_cons, List.not_mem_nil, false_imp_iff, implies_true, and_true]
  exact ⟨(agrees_argumentBeside (agrees_flagField "in_place") "Input").map _,
    (agrees_argumentBeside agrees_noFields "Output").map _,
    (agrees_argumentBeside target "RefInput").map _,
    (agrees_argumentBeside agrees_noFields "Allocation").map _,
    (Constant.agrees_fields.record "Constant").map _,
    (Parameter.agrees_decoder true).map _,
    NumericParameter.agrees_decoder.map _,
    EnumParameter.agrees_decoder.map _⟩

theorem Node.agrees_decoder : Node.decoder.Agrees Sorts := by
  have known : (Decoder.variant kinds).Ensures Any _ := Decoder.ensures_variant kinds
  refine agrees_tagged (Decoder.agrees_variant kinds) (fun source decoder found => ?_) "ArgNode"
  obtain ⟨name, among⟩ := known source decoder trivial found
  exact agrees_kinds _ among

theorem Node.buffers_decoder : Node.decoder.Buffers :=
  (buffers_tagged (Decoder.buffers_variant kinds) "ArgNode").bind fun both =>
    both.1 (.value both.2)

/-! ## Items -/

namespace Item

/-- Without a member `compound` the sorted members are an item exactly if they are a node. -/
theorem toOption_ofValue {members : List (String × Value)} (distinct : (Value.object members).Distinct)
    (absent : "compound" ∉ names members) :
    (ofValue (Value.object members).sorted).toOption =
      (Node.decoder (.value (.object members))).toOption.map node := by
  have gone : (Value.object members).sorted.member? "compound" = none := by
    rw [Value.sorted_object]
    exact Value.lookup?_eq_none (mt Value.mem_names_arranged.mp absent)
  rw [ofValue, gone, toOption_map, Node.agrees_decoder (.intro distinct)]

/-- With a member `compound` the sorted members are no node. -/
theorem ofValue_ne_node {members : List (String × Value)} (present : "compound" ∈ names members)
    (n : Node) : ofValue (Value.object members).sorted ≠ .ok (node n) := by
  obtain ⟨value, found⟩ := Value.exists_lookup?_eq_some (Value.mem_names_arranged.mpr present)
  have there : (Value.object members).sorted.member? "compound" = some value := by
    rw [Value.sorted_object]
    exact found
  intro decoded
  rw [ofValue, there] at decoded
  obtain ⟨compound, -, same⟩ := map_ok_iff.mp decoded
  cases same

variable {text : String} {members : List (List Part × Datum)}

/-- An item is decoded from its sorted value. -/
theorem toOption_decode (spelled : (Datum.object members).Spells text.toList) :
    (Item.decoder.decode text).toOption =
      ((Datum.object members).tree.value Json.Tree.roomInText).toOption.bind fun v =>
        (ofValue v.sorted).toOption := by
  rw [Decoder.toOption_decode Item.decoder spelled, Item.decoder, toOption_bind, Decoder.value,
    toOption_bind, Datum.toOption_read, Option.bind_assoc]
  rfl

theorem toOption_decode_of_absent (spelled : (Datum.object members).Spells text.toList)
    (distinct : (Datum.object members).Distinct) (absent : ¬ Datum.HasMember "compound" members) :
    (Item.decoder.decode text).toOption = (Node.decoder.decode text).toOption.map node := by
  rw [toOption_decode spelled, Decoder.toOption_decode Node.decoder spelled,
    Node.buffers_decoder Json.Tree.roomInText (.object members), Option.map_bind]
  cases read : (Datum.object members).tree.value Json.Tree.roomInText with
  | error fault => rfl
  | ok v =>
    obtain ⟨inner, values, found, rfl⟩ := Datum.value_object_ok read
    exact toOption_ofValue (distinct.value read) (mt (Datum.mem_names_iff found).mp absent)

theorem decode_ne_node (spelled : (Datum.object members).Spells text.toList)
    (present : Datum.HasMember "compound" members) (n : Node) :
    Item.decoder.decode text ≠ .ok (node n) := by
  intro decoded
  rw [← toOption_eq_some_iff, toOption_decode spelled, Option.bind_eq_some_iff] at decoded
  obtain ⟨v, read, made⟩ := decoded
  obtain ⟨inner, values, found, rfl⟩ := Datum.value_object_ok (toOption_eq_some_iff.mp read)
  exact ofValue_ne_node ((Datum.mem_names_iff found).mpr present) n (toOption_eq_some_iff.mp made)

/-- An object of a text without repeated names that has no member `compound` is an item exactly
    if it is a node, and then it is that node. With a member `compound` it is no node as an item,
    whatever else it has. -/
theorem decode_object (spelled : (Datum.object members).Spells text.toList) :
    ((Datum.object members).Distinct → ¬ Datum.HasMember "compound" members →
      (∀ n, Node.decoder.decode text = .ok n ↔ Item.decoder.decode text = .ok (node n)) ∧
        ∀ c, Item.decoder.decode text ≠ .ok (compound c)) ∧
      (Datum.HasMember "compound" members → ∀ n, Item.decoder.decode text ≠ .ok (node n)) := by
  refine ⟨fun distinct absent => ?_, decode_ne_node spelled⟩
  have both := toOption_decode_of_absent spelled distinct absent
  constructor
  · intro n
    rw [← toOption_eq_some_iff, ← toOption_eq_some_iff, both, Option.map_eq_some_iff]
    constructor
    · exact fun decoded => ⟨n, decoded, rfl⟩
    · rintro ⟨other, decoded, same⟩
      cases same
      exact decoded
  · intro c decoded
    rw [← toOption_eq_some_iff, both, Option.map_eq_some_iff] at decoded
    obtain ⟨n, -, same⟩ := decoded
    cases same

/-- An input with its tag behind is an item; with a member of a compound it is still a node, and
    no item. -/
theorem decode_kindLast_compoundInput :
    Item.decoder.decode (String.ofList kindLast.chars) =
        .ok (node (.input { ident := ⟨"src"⟩ } false)) ∧
      Node.decoder.decode (String.ofList compoundInput.chars) =
        .ok (.input { ident := ⟨"src"⟩ } false) ∧
      ∀ n, Item.decoder.decode (String.ofList compoundInput.chars) ≠ .ok (node n) := by
  have last : kindLast.datum.Spells (String.ofList kindLast.chars).toList := by
    rw [String.toList_ofList]
    exact kindLast.spelled
  have both : compoundInput.datum.Spells (String.ofList compoundInput.chars).toList := by
    rw [String.toList_ofList]
    exact compoundInput.spelled
  have distinct : kindLast.datum.Distinct :=
    distinct_object (by decide) (by simp [distinct_text])
  exact ⟨(((decode_object last).1 distinct (by decide)).1 _).mp (by cbv), by cbv,
    (decode_object both).2 (by decide)⟩

end Item
end OperatorGen
