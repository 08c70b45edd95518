import Mathlib
import OperatorGen.Proofs.Definition.Packages
import OperatorGen.Proofs.Json.Ensures

/-!
# Packages that are read

A package that is read from a text is as definition files have it (`Package.definable_of_parse`):
no text names a custom rule or gives types to an enum parameter, and its functions have been
sorted where they stood. So it can be written, and what is written is read as the same package,
unless a function has a number that is not whole.
-/
namespace OperatorGen

open Json (Decoder Fields Number Source Tree Value)
open Json.Source (Any InText Opens opens_any opens_inText)
open Json.Fields (ensures_field ensures_tagged ensures_true)

/-- The elements of a list that may be left out have what their decoder ensures. -/
theorem ensures_listField {α : Type} {outer inner : Source → Prop} (opens : Opens outer inner)
    {element : Decoder α} {holds : α → Prop} (each : element.Ensures inner holds) (name : String) :
    (listField name element).Ensures outer fun list => ∀ a ∈ list, holds a := by
  refine ensures_field (.list opens each) fun list same => ?_
  cases same
  exact nofun

/-! ## Nodes -/

theorem Rule.hasName_of_named {name : String} {rule : Rule}
    (named : Decoder.named known name = .ok rule) : rule.HasName := by
  have entry := Decoder.mem_of_named named
  simp only [known, List.mem_cons, Prod.mk.injEq, List.not_mem_nil, or_false] at entry
  exact entry.imp And.right And.right

/-- A rule that is read has a name. -/
theorem Rule.ensures_hasName (emptyObject : Bool) : (decoder emptyObject).Ensures Any HasName := by
  intro source rule _ read
  cases source with
  | text room tree =>
    cases tree with
    | text name =>
      obtain ⟨known, -, named⟩ := bind_ok_iff.mp read
      exact hasName_of_named named
    | object members ending =>
      obtain ⟨⟨sources, _⟩, -, read⟩ := bind_ok_iff.mp read
      cases sources with
      | nil => cases read
      | cons first rest =>
        simp only [bind_ok_iff] at read
        obtain ⟨name, -, found, named, _, -, _, -, same⟩ := read
        cases same
        exact hasName_of_named named
    | _ => cases read
  | value v =>
    simp only [decoder] at read
    unfold readValue at read
    split at read
    · exact hasName_of_named read
    · simp only [bind_ok_iff] at read
      obtain ⟨found, named, _, -, same⟩ := read
      cases same
      exact hasName_of_named named
    · cases read
    · cases read

theorem Parameter.ensures_own (emptyObject : Bool) :
    (ownFields emptyObject).Ensures Any fun own => ∀ rule ∈ own.2.2.2, rule.HasName := by
  have rules : (listField "rules" (Rule.decoder emptyObject)).Ensures Any
      fun rules => ∀ rule ∈ rules, rule.HasName :=
    ensures_listField opens_any (Rule.ensures_hasName emptyObject) "rules"
  have own := (ensures_true (flagField "in_place") Any).and
    ((ensures_true (flagField "is_init") Any).and
      ((ensures_true (optionalTextField "default") Any).and rules))
  exact own.imp fun _ holds => holds.2.2.2

/-- The rules of a parameter that is read have names. -/
theorem Parameter.ensures_definable (emptyObject : Bool) :
    (decoder emptyObject).Ensures Any Definable := by
  have argument : ∀ members a, Argument.fields.ofMembers members = .ok a → True :=
    fun _ _ _ => trivial
  have whole := (Parameter.ensures_own emptyObject).flattened opens_any argument "Parameter"
  exact whole.map fun _ holds => holds.1

theorem NumericParameter.ensures_definable :
    decoder.Ensures Any fun numeric => numeric.parameter.Definable := by
  have parameter : ∀ members p, Parameter.decoder false (.value (.object members)) = .ok p →
      p.Definable :=
    fun members p => Parameter.ensures_definable false (.value (.object members)) p trivial
  have whole := (ensures_true ownFields Any).flattened opens_any parameter "NumericParameter"
  exact whole.map fun _ holds => holds.2

/-- An enum parameter that is read has the types of every enum parameter. -/
theorem EnumParameter.ensures_definable : decoder.Ensures Any Definable := by
  have own := (Parameter.ensures_own true).and
    (ensures_true (listField "descriptions" EnumDescription.decoder) Any)
  have texts := (ensures_true (listField "init_in" Decoder.text) Any).and
    ((ensures_true (listField "init_out" Decoder.text) Any).and own)
  have whole := (ensures_true identField Any).and ((ensures_true (textField "name") Any).and
    ((ensures_true (textField "description") Any).and texts))
  exact (whole.map fun _ holds => ⟨holds.2.2.2.2.2.1, rfl, rfl⟩).record opens_any "Raw"

theorem Node.kinds_ensure : ∀ entry ∈ kinds, entry.2.Ensures Any Definable := by
  have others : ∀ {α : Type} (decoder : Decoder α) (build : α → Node),
      (∀ a, (build a).Definable) →
        Decoder.Ensures (fun source => (decoder source).map build) Any Definable :=
    fun decoder build definable source => by
      intro node _ read
      obtain ⟨a, -, rfl⟩ := map_ok_iff.mp read
      exact definable a
  simp only [kinds, List.forall_mem_cons]
  refine ⟨others _ _ fun _ => trivial, others _ _ fun _ => trivial, others _ _ fun _ => trivial,
    others _ _ fun _ => trivial, others _ _ fun _ => trivial, ?_, ?_, ?_, nofun⟩
  · exact (Parameter.ensures_definable true).map fun _ holds => holds
  · exact NumericParameter.ensures_definable.map fun _ holds => holds
  · exact EnumParameter.ensures_definable.map fun _ holds => holds

/-- A node that is read can be written. -/
theorem Node.ensures_definable : decoder.Ensures Any Definable := by
  intro source node member read
  obtain ⟨⟨readFields, content⟩, tagged, read⟩ := bind_ok_iff.mp read
  obtain ⟨name, known⟩ := ensures_tagged (Decoder.ensures_variant kinds) "ArgNode" "kind" source _
    member tagged
  exact kinds_ensure _ known (.value content) node trivial read

/-! ## Items -/

theorem Compound.ensures_definable : decoder.Ensures Any Definable := by
  have own : (Fields.required "args" (Decoder.list Node.decoder)).Ensures Any
      fun nodes => ∀ node ∈ nodes, node.Definable :=
    ensures_field (.list opens_any Node.ensures_definable) nofun
  have constructor : ∀ members c, Constructor.ofMembers members = .ok c → True :=
    fun _ _ _ => trivial
  have whole := own.flattened opens_any constructor "Compound"
  exact whole.map fun _ holds => holds.1

theorem Item.definable_of_ofValue {v : Value} {item : Item} (read : ofValue v = .ok item) :
    item.Definable := by
  unfold ofValue at read
  split at read
  · obtain ⟨compound, found, rfl⟩ := map_ok_iff.mp read
    exact Compound.ensures_definable _ compound trivial found
  · obtain ⟨node, found, rfl⟩ := map_ok_iff.mp read
    intro member inside
    obtain rfl := List.mem_singleton.mp inside
    exact Node.ensures_definable _ _ trivial found

/-- An item that is read can be written, wherever it stands. -/
theorem Item.ensures_definable : decoder.Ensures Any Definable := by
  intro source item _ read
  obtain ⟨v, -, found⟩ := bind_ok_iff.mp read
  exact definable_of_ofValue found

/-! ## Packages -/

theorem MethodOption.ensures_definable :
    decoder.Ensures Any fun option => ∀ item ∈ option.items, item.Definable := by
  have items : (listField "args" Item.decoder).Ensures Any
      fun items => ∀ item ∈ items, item.Definable :=
    ensures_listField opens_any Item.ensures_definable "args"
  have whole := (ensures_true identField Any).and ((ensures_true (textField "name") Any).and items)
  exact (whole.map fun _ holds => holds.2.2).record opens_any "OptionDef"

-- A package has room 128; each list and each object inside takes one of it.
theorem Method.ensures_definable : decoder.Ensures (InText 126) (Definable Number.InRange) := by
  have functions : (listField "functions" Decoder.value).Ensures (InText 125)
      fun functions => ∀ function ∈ functions, IsFunction Number.InRange function := by
    refine ensures_listField (opens_inText 124) (fun source v stands read => ?_) "functions"
    obtain ⟨within, sorted⟩ := Decoder.ensures_value 124 source v stands read
    exact ⟨within, sorted⟩
  have options : (listField "options" MethodOption.decoder).Ensures (InText 125)
      fun options => ∀ option ∈ options, ∀ item ∈ option.items, item.Definable :=
    ensures_listField (opens_inText 124) (MethodOption.ensures_definable.anywhere _) "options"
  have texts := (ensures_true (textField "name") (InText 125)).and
    ((ensures_true (textField "doc") (InText 125)).and (functions.and options))
  have whole := (ensures_true identField (InText 125)).and texts
  exact (whole.map fun _ holds => ⟨holds.2.2.2.2, holds.2.2.2.1⟩).record (opens_inText 125) "Method"

theorem Package.ensures_definable :
    decoder.Ensures (InText Tree.roomInText) (Definable Number.InRange) := by
  have methods : (listField "methods" Method.decoder).Ensures (InText 127)
      fun methods => ∀ method ∈ methods, method.Definable Number.InRange :=
    ensures_listField (opens_inText 126) Method.ensures_definable "methods"
  have texts := (ensures_true (textField "description") (InText 127)).and
    ((ensures_true (Fields.required "version" Version.decoder) (InText 127)).and methods)
  have whole := (ensures_true identField (InText 127)).and
    ((ensures_true (textField "name") (InText 127)).and texts)
  exact (whole.map fun _ holds => holds.2.2.2.2).record (opens_inText 127) "Package"

/-- A package that is read from a text is as definition files have it. -/
theorem Package.definable_of_parse {text : String} {package : Package}
    (parsed : parse text = .ok package) : package.Definable Number.InRange :=
  Package.ensures_definable.decode parsed

/-! ## Round trips -/

/-- No function of a package has a number that is not whole. -/
def Package.IsWhole (package : Package) : Prop :=
  ∀ method ∈ package.methods, ∀ function ∈ method.functions, function.isWhole = true

instance : DecidablePred Package.IsWhole := fun package =>
  inferInstanceAs (Decidable (∀ method ∈ package.methods, ∀ function ∈ method.functions,
    function.isWhole = true))

theorem Package.Definable.words {package : Package} (definable : package.Definable Number.InRange)
    (whole : package.IsWhole) : package.Definable Number.IsWord := by
  intro method member
  obtain ⟨items, functions⟩ := definable method member
  refine ⟨items, fun function inside => ?_⟩
  obtain ⟨within, sorted⟩ := functions function inside
  exact ⟨within.words (whole method member function inside), sorted⟩

/-- A package that is read from a text, with whole numbers in its functions, is written as a
    text that is read as the same package and written as the same text. -/
theorem Package.parse_write_roundtrip {text : String} {package : Package} (parsed : parse text = .ok package)
    (whole : package.IsWhole) :
    ∃ written, package.write = .ok written ∧ parse written = .ok package ∧
      ∀ again, parse written = .ok again → again.write = .ok written := by
  have definable := (Package.definable_of_parse parsed).words whole
  obtain ⟨written, wrote, back⟩ := Package.exists_write definable
  refine ⟨written, wrote, back, fun again read => ?_⟩
  have same : package = again := Except.ok.inj (back.symm.trans read)
  rw [← same, wrote]

/-- A text that is given in pieces is decoded by their characters. -/
theorem Json.Decoder.decode_join {α : Type} (decoder : Decoder α) (pieces : List (List Char)) :
    decoder.decode (String.join (pieces.map String.ofList)) =
      (do
        let chars := pieces.flatten
        let (tree, rest) := Tree.parse (Token.lexWith chars.length chars)
        let value ← decoder (.text Tree.roomInText tree)
        if !rest.isEmpty then .error (.fault .trailingCharacters) else .ok value) := by
  have joined : (String.join (pieces.map String.ofList)).toList = pieces.flatten := by
    simp [String.toList_join, List.flatMap_def, Function.comp_def]
  rw [decode, Tree.ofText, Token.lex, joined]

/-- A definition file that leaves out what it can, gives its version by position, and has escapes
    in the display name of a parameter. -/
def blurFile : String :=
  String.join [
    "\x7b\"ident\":\"vision\",\"version\":[1,0,0],\"methods\":[\x7b\"ident\":\"blur\",",
    "\"functions\":[\x7b\"b\":2,\"a\":1\x7d],\"options\":[\x7b\"ident\":\"manual\",\"args\":[",
    "\x7b\"compound\":\"size\",\"args\":[\x7b\"kind\":\"numeric_parameter\",\"ident\":\"w\",",
    "\"min_value\":\"1\",\"rules\":[\"odd\"]\x7d]\x7d,",
    "\x7b\"kind\":\"enum_parameter\",\"ident\":\"mode\",\"name\":\"\\u0061 \\\"b\\\" \\\\\",",
    "\"descriptions\":[\x7b\"ident\":\"fast\"\x7d]\x7d]\x7d]\x7d]\x7d"]

/-- The package that the file describes. -/
def blurPackage : Package where
  ident := ⟨"vision"⟩
  version := ⟨1, 0, 0⟩
  methods := [
    { ident := ⟨"blur"⟩
      functions := [.object [("a", .number (.integer 1)), ("b", .number (.integer 2))]]
      options := [
        { ident := ⟨"manual"⟩
          items := [
            .compound ⟨.size, [.numeric
              { parameter := { argument := { ident := ⟨"w"⟩ }, rules := [.odd] }
                min := some "1" }]⟩,
            .node (.enumeration
              { EnumParameter.make ⟨"mode"⟩ "a \"b\" \\" with
                descriptions := [.make ⟨"fast"⟩ "" none] })] }] }]

set_option maxRecDepth 20000 in
theorem blurFile_roundtrip : Package.parse blurFile = .ok blurPackage ∧ blurPackage.IsWhole ∧
    ∃ written, blurPackage.write = .ok written ∧ Package.parse written = .ok blurPackage ∧
      ∀ again, Package.parse written = .ok again → again.write = .ok written := by
  have parsed : Package.parse blurFile = .ok blurPackage := by
    refine (Decoder.decode_join _ [_, _, _, _, _, _]).trans ?_
    cbv
  have whole : blurPackage.IsWhole := by decide
  exact ⟨parsed, whole, Package.parse_write_roundtrip parsed whole⟩

end OperatorGen
