import OperatorGen.Definition.Reading
import OperatorGen.Definition.Writing
import OperatorGen.Proofs.Json.Record

/-!
# Parameters that are written

The fields of an argument stand beside those of its node, so what is left when a node has
taken its own is read as the argument. A parameter can be written if its rules have names
(`Parameter.Definable`), and then it is read back from any object that offers its members. An
enum parameter has the types of every enum parameter besides (`EnumParameter.Definable`),
as its types are written but not read.
-/
namespace OperatorGen

open Json (Decodes Decoder Fields Number Offers Value)
open Json.Value (names Within)
open Json.Fields (others reads_field)

/-! ## Values of fields -/

/-- The members with every value sorted. -/
def sortedValues (members : List (String × Value)) : List (String × Value) :=
  members.map fun member => (member.1, member.2.sorted)

@[simp] theorem sorted_textList (texts : List String) : (textList texts).sorted = textList texts := by
  rw [textList, Value.sorted_list, List.map_map]
  rfl

@[simp] theorem sorted_optionalText (text : Option String) :
    (optionalText text).sorted = optionalText text := by
  cases text <;> rfl

theorem decodes_optionalText (text : Option String) :
    Decodes Decoder.optionalText (optionalText text) text := by
  intro source shows
  rw [Decoder.optionalText, shows.found]
  cases text <;> rfl

theorem decodes_textList (texts : List String) :
    Decodes (Decoder.list Decoder.text) (textList texts) texts := by
  refine .list ?_
  rw [List.forall₂_map_left_iff, List.forall₂_same]
  exact fun text _ => .text text

theorem decodes_ident (ident : Ident) : Decodes Ident.decoder (.text ident.text) ident :=
  (Decodes.text ident.text).map Ident.mk

theorem within_textList {kind : Number → Prop} {room : Nat} (texts : List String) :
    Within kind (room + 2) (textList texts) := by
  refine .list fun element member => ?_
  obtain ⟨text, -, rfl⟩ := List.mem_map.mp member
  exact .text text

theorem within_optionalText {kind : Number → Prop} {room : Nat} (text : Option String) :
    Within kind room (optionalText text) := by
  cases text with
  | none => exact .null
  | some text => exact .text text

/-! ## Fields that are offered -/

section

variable {members wanted : List (String × Value)} (offers : Offers members wanted)
include offers

theorem reads_ident {ident : Ident} (member : ("ident", Value.text ident.text) ∈ wanted) :
    identField.Reads ["ident"] members ident :=
  reads_field offers.distinct (offers.present member) (decodes_ident ident)

theorem reads_text {name text : String} {default : Option String}
    (member : (name, Value.text text) ∈ wanted) :
    (Fields.field name Decoder.text default).Reads [name] members text :=
  reads_field offers.distinct (offers.present member) (.text text)

theorem reads_optionalText {name : String} {text : Option String}
    (member : (name, optionalText text) ∈ wanted) :
    (optionalTextField name).Reads [name] members text :=
  reads_field offers.distinct (offers.present member) (decodes_optionalText text)

theorem reads_flag {name : String} {flag : Bool} (member : (name, Value.boolean flag) ∈ wanted) :
    (flagField name).Reads [name] members flag :=
  reads_field offers.distinct (offers.present member) (.boolean flag)

theorem reads_texts {name : String} {texts : List String}
    (member : (name, textList texts) ∈ wanted) :
    (listField name Decoder.text).Reads [name] members texts :=
  reads_field offers.distinct (offers.present member) (decodes_textList texts)

end

/-! ## Arguments -/

/-- The names of the members of an argument. -/
def Argument.known : List String :=
  ["ident", "name", "cv_type", "data_type", "description", "init_in", "init_out"]

theorem Argument.names_members (argument : Argument) : names argument.members = known := rfl

theorem Argument.sortedValues_members (argument : Argument) :
    sortedValues argument.members = argument.members := by
  simp [sortedValues, members, Value.sorted]

theorem Argument.within {kind : Number → Prop} {room : Nat} (argument : Argument) :
    ∀ member ∈ argument.members, Within kind (room + 2) member.2 := by
  simp only [members, List.forall_mem_cons]
  exact ⟨.text _, .text _, .text _, .text _, .text _, within_textList _, within_textList _, nofun⟩

/-- An argument is read from members that offer its own. -/
theorem Argument.reads {argument : Argument} {members : List (String × Value)}
    (offers : Offers members argument.members) : fields.Reads known members argument := by
  have ident : identField.Reads ["ident"] members argument.ident :=
    reads_ident offers (by simp [Argument.members])
  have name : (textField "name").Reads ["name"] members argument.name :=
    reads_text offers (by simp [Argument.members])
  have nativeType : (textField "cv_type").Reads ["cv_type"] members argument.nativeType :=
    reads_text offers (by simp [Argument.members])
  have wrapperType : (textField "data_type").Reads ["data_type"] members argument.wrapperType :=
    reads_text offers (by simp [Argument.members])
  have description : (textField "description").Reads ["description"] members argument.description :=
    reads_text offers (by simp [Argument.members])
  have initIn : (listField "init_in" Decoder.text).Reads ["init_in"] members argument.initIn :=
    reads_texts offers (by simp [Argument.members])
  have initOut : (listField "init_out" Decoder.text).Reads ["init_out"] members argument.initOut :=
    reads_texts offers (by simp [Argument.members])
  exact (ident.and (name.and (nativeType.and (wrapperType.and (description.and
    (initIn.and initOut (by decide)) (by decide)) (by decide)) (by decide)) (by decide))
    (by decide)).map _

/-- An argument is read from what is left when others have been taken. -/
theorem Argument.ofMembers_others {argument : Argument} {members : List (String × Value)}
    (offers : Offers members argument.members) {own : List String}
    (apart : ∀ name ∈ known, name ∉ own) : fields.ofMembers (others own members) = .ok argument := by
  refine (Argument.reads (offers.filter fun member inside => ?_)).ofMembers
  have inKnown : member.1 ∈ names argument.members := List.mem_map_of_mem inside
  rw [argument.names_members] at inKnown
  simpa using apart member.1 inKnown

/-- Fields beside those of an argument leave the argument to be read. -/
theorem decodes_argumentBeside {α : Type} {own : Fields α} {taken : List String} {a : α}
    {argument : Argument} {members : List (String × Value)} (reads : own.Reads taken members a)
    (offers : Offers members argument.members) (apart : ∀ name ∈ Argument.known, name ∉ taken)
    (name : String) : Decodes (argumentBeside name own) (.object members) (a, argument) :=
  reads.flattened (Argument.ofMembers_others offers apart) name

theorem reads_noFields (members : List (String × Value)) : noFields.Reads [] members () where
  knows key source draft := by simp [noFields]
  reads sources shown := by
    have knows : noFields.Knows [] := fun key source draft => by simp [noFields]
    exact ⟨(), Fields.readMembers_of_unknown knows shown (by simp) _, fun _ _ => rfl⟩

/-! ## Parameters -/

/-- A rule that has a name in definition files. -/
def Rule.HasName (rule : Rule) : Prop :=
  rule = .odd ∨ rule = .even

theorem Rule.toValue_of_hasName {rule : Rule} (named : rule.HasName) :
    rule.toValue = .ok (.text rule.name) := by
  rcases named with rfl | rfl <;> rfl

theorem Rule.decodes_name {rule : Rule} (named : rule.HasName) (emptyObject : Bool) :
    Decodes (decoder emptyObject) (.text rule.name) rule := by
  intro source shows
  cases shows <;> rcases named with rfl | rfl <;> rfl

/-- All rules of a parameter have names. -/
def Parameter.Definable (parameter : Parameter) : Prop :=
  ∀ rule ∈ parameter.rules, rule.HasName

/-- The members of a parameter whose rules have names. -/
def Parameter.definition (parameter : Parameter) : List (String × Value) :=
  parameter.argument.members ++
    [("in_place", .boolean parameter.inPlace), ("is_init", .boolean parameter.isInit),
     ("default", optionalText parameter.default),
     ("rules", textList (parameter.rules.map Rule.name))]

theorem writeAll_eq_map {α : Type} {write : α → Except WriteError Value} {value : α → Value}
    {list : List α} (each : ∀ x ∈ list, write x = .ok (value x)) :
    writeAll write list = .ok (list.map value) := by
  induction list with
  | nil => rfl
  | cons x rest ih =>
    have first := each x List.mem_cons_self
    have others := ih fun y member => each y (List.mem_cons_of_mem _ member)
    rw [writeAll, first, others]
    rfl

theorem Parameter.members_eq {parameter : Parameter} (definable : parameter.Definable) :
    parameter.members = .ok parameter.definition := by
  have rules := writeAll_eq_map fun rule member => Rule.toValue_of_hasName (definable rule member)
  rw [members, rules, definition, textList, List.map_map]
  rfl

theorem Parameter.sortedValues_definition (parameter : Parameter) :
    sortedValues parameter.definition = parameter.definition := by
  have argument := parameter.argument.sortedValues_members
  simp only [sortedValues] at argument
  simp [sortedValues, definition, argument, Value.sorted]

theorem Parameter.within {kind : Number → Prop} {room : Nat} (parameter : Parameter) :
    ∀ member ∈ parameter.definition, Within kind (room + 2) member.2 := by
  simp only [definition, List.forall_mem_append, List.forall_mem_cons]
  exact ⟨parameter.argument.within, .boolean _, .boolean _, within_optionalText _,
    within_textList _, nofun⟩

/-- The names of a parameter's members beside those of its argument. -/
def Parameter.ownKnown : List String :=
  ["in_place", "is_init", "default", "rules"]

theorem Parameter.reads_own {parameter : Parameter} (definable : parameter.Definable)
    {members : List (String × Value)} (offers : Offers members parameter.definition)
    (emptyObject : Bool) :
    (ownFields emptyObject).Reads ownKnown members
      (parameter.inPlace, parameter.isInit, parameter.default, parameter.rules) := by
  have inPlace : (flagField "in_place").Reads ["in_place"] members parameter.inPlace :=
    reads_flag offers (by simp [definition])
  have isInit : (flagField "is_init").Reads ["is_init"] members parameter.isInit :=
    reads_flag offers (by simp [definition])
  have default : (optionalTextField "default").Reads ["default"] members parameter.default :=
    reads_optionalText offers (by simp [definition])
  have decodes : Decodes (Decoder.list (Rule.decoder emptyObject))
      (textList (parameter.rules.map Rule.name)) parameter.rules := by
    refine .list ?_
    rw [List.map_map, List.forall₂_map_left_iff, List.forall₂_same]
    exact fun rule member => Rule.decodes_name (definable rule member) emptyObject
  have rules : (listField "rules" (Rule.decoder emptyObject)).Reads ["rules"] members
      parameter.rules :=
    reads_field offers.distinct (offers.present (by simp [definition])) decodes
  exact inPlace.and (isInit.and (default.and rules (by decide)) (by decide)) (by decide)

/-- A parameter is read from members that offer its own. -/
theorem Parameter.decodes {parameter : Parameter} (definable : parameter.Definable)
    {members : List (String × Value)} (offers : Offers members parameter.definition)
    (emptyObject : Bool) : Decodes (decoder emptyObject) (.object members) parameter := by
  have argument : Argument.fields.ofMembers (others ownKnown members) = .ok parameter.argument :=
    Argument.ofMembers_others (offers.subset (List.subset_append_left _ _)) (by decide)
  exact ((Parameter.reads_own definable offers emptyObject).flattened argument "Parameter").map
    ofParts

/-! ## Numeric parameters -/

/-- The members of a numeric parameter whose rules have names. -/
def NumericParameter.definition (numeric : NumericParameter) : List (String × Value) :=
  numeric.parameter.definition ++
    [("min_value", optionalText numeric.min), ("max_value", optionalText numeric.max),
     ("step", optionalText numeric.step)]

theorem NumericParameter.within {kind : Number → Prop} {room : Nat} (numeric : NumericParameter) :
    ∀ member ∈ numeric.definition, Within kind (room + 2) member.2 := by
  simp only [definition, List.forall_mem_append, List.forall_mem_cons]
  exact ⟨numeric.parameter.within, within_optionalText _, within_optionalText _,
    within_optionalText _, nofun⟩

/-- The names of a numeric parameter's members beside those of its parameter. -/
def NumericParameter.ownKnown : List String :=
  ["min_value", "max_value", "step"]

/-- The names of the members of a parameter. -/
def Parameter.known : List String :=
  Argument.known ++ ownKnown

theorem Parameter.names_definition (parameter : Parameter) :
    names parameter.definition = known := rfl

/-- A numeric parameter is read from members that offer its own. -/
theorem NumericParameter.decodes {numeric : NumericParameter}
    (definable : numeric.parameter.Definable) {members : List (String × Value)}
    (offers : Offers members numeric.definition) : Decodes decoder (.object members) numeric := by
  have min : (optionalTextField "min_value").Reads ["min_value"] members numeric.min :=
    reads_optionalText offers (by simp [definition])
  have max : (optionalTextField "max_value").Reads ["max_value"] members numeric.max :=
    reads_optionalText offers (by simp [definition])
  have step : (optionalTextField "step").Reads ["step"] members numeric.step :=
    reads_optionalText offers (by simp [definition])
  have own : ownFields.Reads ownKnown members (numeric.min, numeric.max, numeric.step) :=
    min.and (max.and step (by decide)) (by decide)
  -- The parameter, with its argument, is read from what is left.
  have left : Offers (others ownKnown members) numeric.parameter.definition := by
    refine (offers.subset (List.subset_append_left _ _)).filter fun member inside => ?_
    have inKnown : member.1 ∈ names numeric.parameter.definition := List.mem_map_of_mem inside
    rw [numeric.parameter.names_definition] at inKnown
    have apart : ∀ name ∈ Parameter.known, name ∉ ownKnown := by decide
    simpa using apart member.1 inKnown
  have parameter : Parameter.decoder false (.value (.object (others ownKnown members))) =
      .ok numeric.parameter := Parameter.decodes definable left false _ (.value _)
  exact (own.flattened parameter "NumericParameter").map ofParts

/-! ## Enum parameters -/

/-- The members of a description. -/
def EnumDescription.definition (description : EnumDescription) : List (String × Value) :=
  [("ident", .text description.ident.text), ("name", .text description.name),
    ("cv_ident", .text description.nativeIdent)]

/-- A description is read from members that offer its own; its native enumerator is there, so
    no other takes its place. -/
theorem EnumDescription.decodes {description : EnumDescription} {members : List (String × Value)}
    (offers : Offers members description.definition) :
    Decodes decoder (.object members) description := by
  have ident : identField.Reads ["ident"] members description.ident :=
    reads_ident offers (by simp [definition])
  have name : (textField "name").Reads ["name"] members description.name :=
    reads_text offers (by simp [definition])
  have nativeIdent : (optionalTextField "cv_ident").Reads ["cv_ident"] members
      (some description.nativeIdent) :=
    reads_optionalText offers (by simp [definition, optionalText])
  exact ((ident.and (name.and nativeIdent (by decide)) (by decide)).map _).record "Raw"

/-- A sorted object offers its members, sorted. -/
theorem exists_offers_sorted {wanted : List (String × Value)} (distinct : (names wanted).Nodup) :
    ∃ members, (Value.object wanted).sorted = .object members ∧
      Offers members (sortedValues wanted) ∧ names members ⊆ names wanted := by
  refine ⟨_, Value.sorted_object wanted, Offers.sorted distinct, fun name member => ?_⟩
  obtain ⟨entry, inside, rfl⟩ := List.mem_map.mp member
  obtain ⟨original, among, rfl⟩ := List.mem_map.mp (Value.mem_sortMembers inside)
  exact List.mem_map.mpr ⟨original, among, rfl⟩

theorem EnumDescription.decodes_sorted (description : EnumDescription) :
    Decodes decoder description.toValue.sorted description := by
  obtain ⟨members, sorted, offers, -⟩ :=
    exists_offers_sorted (show (names description.definition).Nodup by
      simp [names, definition])
  have same : description.toValue = .object description.definition := rfl
  rw [same, sorted]
  exact EnumDescription.decodes offers

/-- The types of an enum parameter are those of every enum parameter, and its rules have
    names. -/
structure EnumParameter.Definable (enumeration : EnumParameter) : Prop where
  rules : enumeration.parameter.Definable
  native : enumeration.parameter.argument.nativeType = nativeType
  wrapper : enumeration.parameter.argument.wrapperType = wrapperType

/-- The members of an enum parameter whose rules have names. -/
def EnumParameter.definition (enumeration : EnumParameter) : List (String × Value) :=
  enumeration.parameter.definition ++
    [("descriptions", .list (enumeration.descriptions.map EnumDescription.toValue))]

theorem EnumDescription.within {kind : Number → Prop} {room : Nat}
    (description : EnumDescription) : Within kind (room + 2) description.toValue := by
  have each : ∀ member ∈ description.definition, Within kind (room + 1) member.2 := by
    simp only [definition, List.forall_mem_cons]
    exact ⟨.text _, .text _, .text _, nofun⟩
  exact .object each

theorem EnumParameter.within {kind : Number → Prop} {room : Nat} (enumeration : EnumParameter) :
    ∀ member ∈ enumeration.definition, Within kind (room + 3) member.2 := by
  simp only [definition, List.forall_mem_append, List.forall_mem_cons]
  refine ⟨enumeration.parameter.within, .list fun element member => ?_, nofun⟩
  obtain ⟨description, -, rfl⟩ := List.mem_map.mp member
  exact description.within

/-- An enum parameter with the types of every enum parameter. -/
def EnumParameter.rebuilt (enumeration : EnumParameter) : EnumParameter :=
  { enumeration with
    parameter.argument.nativeType := nativeType
    parameter.argument.wrapperType := wrapperType }

theorem EnumParameter.rebuilt_eq {enumeration : EnumParameter} (definable : enumeration.Definable) :
    enumeration.rebuilt = enumeration := by
  rw [rebuilt, ← definable.native, ← definable.wrapper]

/-- The names of an enum parameter's members that are read. -/
def EnumParameter.known : List String :=
  ["ident", "name", "description", "init_in", "init_out", "in_place", "is_init", "default",
    "rules", "descriptions"]

/-- An enum parameter is read from members that offer its own, with sorted descriptions. The
    types are not read, as they are fixed. -/
theorem EnumParameter.decodes {enumeration : EnumParameter} (definable : enumeration.Definable)
    {members : List (String × Value)} (offers : Offers members (sortedValues enumeration.definition)) :
    Decodes decoder (.object members) enumeration := by
  have wanted : sortedValues enumeration.definition = enumeration.parameter.definition ++
      [("descriptions", .list (enumeration.descriptions.map fun d => d.toValue.sorted))] := by
    have parameter := enumeration.parameter.sortedValues_definition
    simp only [sortedValues] at parameter
    simp [sortedValues, definition, parameter, Value.sorted_list, Function.comp_def]
  rw [wanted] at offers
  have ident : identField.Reads ["ident"] members enumeration.parameter.argument.ident :=
    reads_ident offers (by simp [Parameter.definition, Argument.members])
  have name : (textField "name").Reads ["name"] members enumeration.parameter.argument.name :=
    reads_text offers (by simp [Parameter.definition, Argument.members])
  have description : (textField "description").Reads ["description"] members
      enumeration.parameter.argument.description :=
    reads_text offers (by simp [Parameter.definition, Argument.members])
  have initIn : (listField "init_in" Decoder.text).Reads ["init_in"] members
      enumeration.parameter.argument.initIn :=
    reads_texts offers (by simp [Parameter.definition, Argument.members])
  have initOut : (listField "init_out" Decoder.text).Reads ["init_out"] members
      enumeration.parameter.argument.initOut :=
    reads_texts offers (by simp [Parameter.definition, Argument.members])
  have own := Parameter.reads_own definable.rules (offers.subset (List.subset_append_left _ _)) true
  have each : Decodes (Decoder.list EnumDescription.decoder)
      (.list (enumeration.descriptions.map fun d => d.toValue.sorted)) enumeration.descriptions := by
    refine .list ?_
    rw [List.forall₂_map_left_iff, List.forall₂_same]
    exact fun description _ => description.decodes_sorted
  have descriptions : (listField "descriptions" EnumDescription.decoder).Reads ["descriptions"]
      members enumeration.descriptions :=
    reads_field offers.distinct (offers.present (by simp)) each
  have whole : fields.Reads known members (rebuilt enumeration) :=
    (ident.and (name.and (description.and (initIn.and (initOut.and
      (own.and descriptions (by decide)) (by decide)) (by decide)) (by decide)) (by decide))
      (by decide)).map _
  rw [rebuilt_eq definable] at whole
  exact whole.record "Raw"

end OperatorGen
