import OperatorGen.Proofs.Definition.Parameters

/-!
# Items that are written

A node is written as an object with its kind and its fields, and it is read back from the
object with its members sorted, as an item is sorted before it is looked into. An item is a
compound if it has a member with that name, and no node has one. What can be written, and read
back, are the nodes that are parameters as definition files have them (`Node.Definable`), and
all others.
-/
namespace OperatorGen

open Json (Decodes Decoder Fields Number Offers Value)
open Json.Value (names Within)
open Json.Fields (others reads_field)

/-! ## Kinds of nodes -/

/-- The parameters among nodes are as definition files have them. -/
def Node.Definable : Node → Prop
  | parameter p => p.Definable
  | numeric n => n.parameter.Definable
  | enumeration e => e.Definable
  | _ => True

/-- The members of a constant. -/
def Constant.definition (c : Constant) : List (String × Value) :=
  [("ident", .text c.ident.text), ("cv_type", .text c.nativeType), ("value", .text c.value)]

/-- A constant is read from members that offer its own. -/
theorem Constant.decodes {c : Constant} {members : List (String × Value)}
    (offers : Offers members c.definition) :
    Decodes (fields.record "Constant") (.object members) c := by
  have ident : identField.Reads ["ident"] members c.ident :=
    reads_ident offers (by simp [definition])
  have nativeType : (Fields.required "cv_type" Decoder.text).Reads ["cv_type"] members c.nativeType :=
    reads_text offers (by simp [definition])
  have value : (Fields.required "value" Decoder.text).Reads ["value"] members c.value :=
    reads_text offers (by simp [definition])
  exact ((ident.and (nativeType.and value (by decide)) (by decide)).map _).record "Constant"

/-- The members of a node whose rules have names, beside its kind. -/
def Node.definition : Node → List (String × Value)
  | input argument inPlace => argument.members ++ [("in_place", .boolean inPlace)]
  | output argument => argument.members
  | refInput argument target => argument.members ++ [("ref_arg", .text target.text)]
  | allocation argument => argument.members
  | constant c => c.definition
  | parameter p => p.definition
  | numeric n => n.definition
  | enumeration e => e.definition

theorem Node.members_eq {node : Node} (definable : node.Definable) :
    node.members = .ok node.definition := by
  cases node with
  | parameter p => exact Parameter.members_eq definable
  | numeric n =>
    rw [members, NumericParameter.members, Parameter.members_eq definable]
    rfl
  | enumeration e =>
    rw [members, EnumParameter.members, Parameter.members_eq definable.rules]
    rfl
  | _ => rfl

/-- A node has each of its members once, and none of them is a compound. -/
theorem Node.distinct (node : Node) :
    (names (("compound", .null) :: ("kind", .text node.tag) :: node.definition)).Nodup := by
  cases node <;>
    simp [names, definition, Argument.members, Constant.definition, Parameter.definition,
      NumericParameter.definition, EnumParameter.definition]

@[simp] theorem sortedValues_append (members others : List (String × Value)) :
    sortedValues (members ++ others) = sortedValues members ++ sortedValues others :=
  List.map_append

/-- The decoder that belongs to the kind of a node reads the node from members that offer its
    own. -/
theorem Node.exists_kind {node : Node} (definable : node.Definable)
    {members : List (String × Value)} (offers : Offers members (sortedValues node.definition)) :
    ∃ readFields, Decoder.named kinds node.tag = .ok readFields ∧
      Decodes readFields (.object members) node := by
  cases node with
  | input argument inPlace =>
    rw [definition, sortedValues_append, argument.sortedValues_members] at offers
    have beside : (flagField "in_place").Reads ["in_place"] members inPlace :=
      reads_flag offers (by simp [sortedValues, Value.sorted])
    refine ⟨_, rfl, (decodes_argumentBeside beside ?_ (by decide) "Input").map _⟩
    exact offers.subset (List.subset_append_left _ _)
  | output argument =>
    rw [definition, argument.sortedValues_members] at offers
    exact ⟨_, rfl, (decodes_argumentBeside (reads_noFields _) offers (by simp) "Output").map _⟩
  | refInput argument target =>
    rw [definition, sortedValues_append, argument.sortedValues_members] at offers
    have beside : (Fields.required "ref_arg" Ident.decoder).Reads ["ref_arg"] members target :=
      reads_field offers.distinct (offers.present (by simp [sortedValues, Value.sorted]))
        (decodes_ident target)
    refine ⟨_, rfl, (decodes_argumentBeside beside ?_ (by decide) "RefInput").map _⟩
    exact offers.subset (List.subset_append_left _ _)
  | allocation argument =>
    rw [definition, argument.sortedValues_members] at offers
    exact ⟨_, rfl, (decodes_argumentBeside (reads_noFields _) offers (by simp) "Allocation").map _⟩
  | constant c =>
    have same : sortedValues c.definition = c.definition := by
      simp [sortedValues, Constant.definition, Value.sorted]
    rw [definition, same] at offers
    exact ⟨_, rfl, (Constant.decodes offers).map _⟩
  | parameter p =>
    rw [definition, p.sortedValues_definition] at offers
    exact ⟨_, rfl, (Parameter.decodes definable offers true).map _⟩
  | numeric n =>
    have same : sortedValues n.definition = n.definition := by
      rw [NumericParameter.definition, sortedValues_append, n.parameter.sortedValues_definition]
      simp [sortedValues]
    rw [definition, same] at offers
    exact ⟨_, rfl, (NumericParameter.decodes definable offers).map _⟩
  | enumeration e => exact ⟨_, rfl, (EnumParameter.decodes definable offers).map _⟩

/-- A node is read from members that offer its kind and its own. -/
theorem Node.decodes {node : Node} (definable : node.Definable) {members : List (String × Value)}
    (offers : Offers members (sortedValues (("kind", .text node.tag) :: node.definition))) :
    Decodes decoder (.object members) node := by
  have tag : ("kind", Value.text node.tag) ∈ members := offers.present List.mem_cons_self
  have left : Offers (others ["kind"] members) (sortedValues node.definition) := by
    refine (offers.subset (List.subset_cons_self _ _)).filter fun member inside => ?_
    obtain ⟨original, among, rfl⟩ := List.mem_map.mp inside
    have absent : "kind" ∉ names node.definition :=
      (List.nodup_cons.mp (List.nodup_cons.mp node.distinct).2).1
    have different : original.1 ≠ "kind" := fun same =>
      absent (same ▸ List.mem_map_of_mem among)
    simpa using different
  obtain ⟨readFields, found, reads⟩ := Node.exists_kind definable left
  intro source shows
  have tagged := Fields.tagged_decodes offers.distinct tag (.variant found) "ArgNode" source shows
  rw [decoder, tagged]
  exact reads _ (.value _)

theorem Node.within {kind : Number → Prop} (node : Node) :
    ∀ member ∈ node.definition, Within kind 3 member.2 := by
  cases node with
  | input argument inPlace =>
    simp only [definition, List.forall_mem_append, List.forall_mem_cons]
    exact ⟨argument.within, .boolean _, nofun⟩
  | output argument => exact argument.within
  | refInput argument target =>
    simp only [definition, List.forall_mem_append, List.forall_mem_cons]
    exact ⟨argument.within, .text _, nofun⟩
  | allocation argument => exact argument.within
  | constant c =>
    simp only [definition, Constant.definition, List.forall_mem_cons]
    exact ⟨.text _, .text _, .text _, nofun⟩
  | parameter p => exact p.within
  | numeric n => exact n.within
  | enumeration e => exact e.within

/-- A node is written as an object from which it is read back. -/
theorem Node.exists_written {node : Node} (definable : node.Definable) :
    ∃ written members, node.toValue = .ok written ∧ Within Number.IsWord 4 written ∧
      written.sorted = .object members ∧ "compound" ∉ names members ∧
      Decodes decoder (.object members) node := by
  obtain ⟨absent, distinct⟩ := List.nodup_cons.mp node.distinct
  obtain ⟨members, sorted, offers, known⟩ := exists_offers_sorted distinct
  refine ⟨.object (("kind", .text node.tag) :: node.definition), members, ?_, ?_, sorted, ?_,
    Node.decodes definable offers⟩
  · rw [toValue, Node.members_eq definable]
    rfl
  · refine .object (List.forall_mem_cons.mpr ⟨.text _, node.within⟩)
  · exact fun inside => absent (known inside)

/-! ## Compounds -/

/-- What is written for a list, when something is written for each of its elements. -/
theorem exists_writeAll {α : Type} {write : α → Except WriteError Value} {fits : Value → Prop}
    {reads : Value → α → Prop} {list : List α}
    (each : ∀ x ∈ list, ∃ v, write x = .ok v ∧ fits v ∧ reads v x) :
    ∃ values, writeAll write list = .ok values ∧ (∀ v ∈ values, fits v) ∧
      List.Forall₂ reads values list := by
  induction list with
  | nil => exact ⟨[], rfl, nofun, .nil⟩
  | cons x rest ih =>
    obtain ⟨v, written, fit, read⟩ := each x List.mem_cons_self
    obtain ⟨values, others, fitting, reading⟩ := ih fun y member =>
      each y (List.mem_cons_of_mem _ member)
    refine ⟨v :: values, ?_, List.forall_mem_cons.mpr ⟨fit, fitting⟩, .cons read reading⟩
    rw [writeAll, written, others]
    rfl

/-- The constituents of a compound can be written. -/
def Compound.Definable (compound : Compound) : Prop :=
  ∀ node ∈ compound.arguments, node.Definable

theorem Constructor.decodes_tag {name : String} {readFields : Decoder Constructor}
    (found : Decoder.named kinds name = .ok readFields) :
    Decodes tagDecoder (.text name) readFields := by
  intro source shows
  rw [tagDecoder, shows.found]
  exact Decodes.variant found source shows

/-- The way to combine constituents is read from members that offer its own. -/
theorem Constructor.ofMembers_eq {constructor : Constructor} {members : List (String × Value)}
    (offers : Offers members constructor.members) : ofMembers members = .ok constructor := by
  cases constructor with
  | size =>
    have tag : ("compound", Value.text "size") ∈ members := offers.present (by simp [Constructor.members])
    have tagged := Fields.tagged_decodes offers.distinct tag (Constructor.decodes_tag rfl)
      "CompoundKind" _ (.value _)
    rw [ofMembers, tagged]
    rfl
  | call name =>
    have tag : ("compound", Value.text "call") ∈ members := offers.present (by simp [Constructor.members])
    have tagged := Fields.tagged_decodes offers.distinct tag (Constructor.decodes_tag rfl)
      "CompoundKind" _ (.value _)
    have left : Offers (others ["compound"] members) [("constructor", .text name)] :=
      (offers.subset (by simp [Constructor.members])).filter (by simp)
    have reads : (Fields.required "constructor" Decoder.text).Reads ["constructor"]
        (others ["compound"] members) name := reads_text left List.mem_cons_self
    rw [ofMembers, tagged]
    exact (reads.record "Call").map Constructor.call _ (.value _)

theorem Constructor.within {kind : Number → Prop} {room : Nat} (constructor : Constructor) :
    ∀ member ∈ constructor.members, Within kind room member.2 := by
  cases constructor with
  | size => exact List.forall_mem_cons.mpr ⟨.text _, nofun⟩
  | call name =>
    simp only [Constructor.members, List.forall_mem_cons]
    exact ⟨.text _, .text _, nofun⟩

/-- A compound is read from members that offer its own, with its constituents sorted. -/
theorem Compound.decodes {constructor : Constructor} {arguments : List Node} {values : List Value}
    (reads : List.Forall₂ (fun v node => Decodes Node.decoder v.sorted node) values arguments)
    {members : List (String × Value)}
    (offers : Offers members (sortedValues (constructor.members ++ [("args", .list values)]))) :
    Decodes decoder (.object members) ⟨constructor, arguments⟩ := by
  have same : sortedValues constructor.members = constructor.members := by
    cases constructor <;> simp [sortedValues, Constructor.members, Value.sorted]
  rw [sortedValues_append, same] at offers
  have constituents : Decodes (Decoder.list Node.decoder) (.list (values.map Value.sorted))
      arguments := by
    refine .list ?_
    rwa [List.forall₂_map_left_iff]
  have own : (Fields.required "args" (Decoder.list Node.decoder)).Reads ["args"] members arguments :=
    reads_field offers.distinct
      (offers.present (by simp [sortedValues, Value.sorted_list])) constituents
  have left : Offers (others ["args"] members) constructor.members := by
    refine (offers.subset (List.subset_append_left _ _)).filter ?_
    cases constructor <;> simp [Constructor.members]
  exact (own.flattened (Constructor.ofMembers_eq left) "Compound").map _

/-- A compound is written as an object from which it is read back. -/
theorem Compound.exists_written {compound : Compound} (definable : compound.Definable) :
    ∃ written members, compound.toValue = .ok written ∧ Within Number.IsWord 6 written ∧
      written.sorted = .object members ∧ "compound" ∈ names members ∧
      Decodes decoder (.object members) compound := by
  obtain ⟨constructor, arguments⟩ := compound
  have each : ∀ node ∈ arguments, ∃ v, node.toValue = .ok v ∧ Within Number.IsWord 4 v ∧
      Decodes Node.decoder v.sorted node := by
    intro node member
    obtain ⟨written, members, wrote, fits, sorted, -, decodes⟩ :=
      Node.exists_written (definable node member)
    exact ⟨written, wrote, fits, sorted ▸ decodes⟩
  obtain ⟨values, wroteAll, within, reads⟩ := exists_writeAll each
  have distinct : (names (constructor.members ++ [("args", .list values)])).Nodup := by
    cases constructor <;> simp [names, Constructor.members]
  obtain ⟨members, sorted, offers, -⟩ := exists_offers_sorted distinct
  refine ⟨_, members, ?_, ?_, sorted, ?_, Compound.decodes reads offers⟩
  · simp only [toValue, wroteAll]
    rfl
  · refine .object (List.forall_mem_append.mpr ⟨constructor.within, ?_⟩)
    exact List.forall_mem_cons.mpr ⟨.list within, List.forall_mem_nil _⟩
  · have tag : "compound" ∈ names (sortedValues (constructor.members ++ [("args", .list values)])) := by
      cases constructor <;> simp [names, sortedValues, Constructor.members]
    obtain ⟨entry, inside, named⟩ := List.mem_map.mp tag
    exact List.mem_map.mpr ⟨entry, offers.present inside, named⟩

/-! ## Items -/

/-- The nodes of an item can be written. -/
def Item.Definable (item : Item) : Prop :=
  ∀ node ∈ item.arguments, node.Definable

/-- An item is written as a value from which it is read back. -/
theorem Item.exists_written {item : Item} (definable : item.Definable) :
    ∃ written, item.toValue = .ok written ∧ Within Number.IsWord 6 written ∧
      Decodes decoder written item := by
  cases item with
  | node n =>
    obtain ⟨written, members, wrote, within, sorted, absent, decodes⟩ :=
      Node.exists_written (definable n List.mem_cons_self)
    refine ⟨written, wrote, within.mono (by omega), fun source shows => ?_⟩
    rw [decoder, Decodes.value written source shows, sorted]
    simp only [bind, Except.bind, ofValue, Value.member?, Value.lookup?_eq_none absent]
    exact decodes.map _ _ (.value _)
  | compound c =>
    obtain ⟨written, members, wrote, within, sorted, present, decodes⟩ :=
      Compound.exists_written definable
    obtain ⟨tag, found⟩ := Value.exists_lookup?_eq_some present
    refine ⟨written, wrote, within, fun source shows => ?_⟩
    rw [decoder, Decodes.value written source shows, sorted]
    simp only [bind, Except.bind, ofValue, Value.member?, found]
    exact decodes.map _ _ (.value _)

end OperatorGen
