import OperatorGen.Emission.File
import OperatorGen.Proofs.Emission.DataIds
import OperatorGen.Proofs.Emission.Literals
import OperatorGen.Proofs.Ident

/-!
# The texts of a definition

The code for a method is put together from literals and from the texts that the definition
and the conventions give (`Package.texts`, `Config.texts`): spellings, names, types, values
and fragments. The documentation of a method is not among them. Texts are plain if no
character in them opens or closes a block or ends a line (`Plain`), and all that is derived
from plain texts is plain.
-/
namespace OperatorGen

/-! ## Texts -/

def Argument.texts (argument : Argument) : List String :=
  [argument.ident.text, argument.name, argument.nativeType, argument.wrapperType] ++
    argument.initIn ++ argument.initOut

def Parameter.texts (parameter : Parameter) : List String :=
  parameter.argument.texts ++ parameter.default.toList

def NumericParameter.texts (numeric : NumericParameter) : List String :=
  numeric.parameter.texts ++ numeric.min.toList ++ numeric.max.toList ++ numeric.step.toList

def EnumDescription.texts (description : EnumDescription) : List String :=
  [description.ident.text, description.name, description.nativeIdent]

def EnumParameter.texts (enumeration : EnumParameter) : List String :=
  enumeration.parameter.texts ++ enumeration.descriptions.flatMap EnumDescription.texts

def Node.texts : Node → List String
  | input argument _ => argument.texts
  | output argument => argument.texts
  | refInput argument _ => argument.texts
  | allocation argument => argument.texts
  | constant c => [c.ident.text, c.nativeType, c.value]
  | parameter p => p.texts
  | numeric n => n.texts
  | enumeration e => e.texts

/-- The name of the native constructor, if it is called by its name. -/
def Constructor.texts : Constructor → List String
  | size => []
  | call name => [name]

/-- The texts of an item beside those of its nodes. -/
def Item.ownTexts : Item → List String
  | node _ => []
  | compound c => c.constructor.texts

def MethodOption.texts (option : MethodOption) : List String :=
  [option.ident.text, option.name] ++ option.items.flatMap Item.ownTexts ++
    option.arguments.flatMap Node.texts

def Method.texts (method : Method) : List String :=
  [method.ident.text, method.name, method.nativeFunction] ++
    method.options.flatMap MethodOption.texts

def Package.texts (package : Package) : List String :=
  package.ident.text :: package.methods.flatMap Method.texts

def Config.texts (config : Config) : List String :=
  [config.sizeType, config.dataSuffix, config.runtimeNamespace]

/-! ## Plain texts -/

/-- A character that neither opens nor closes a block, nor ends a line. -/
def isPlain (c : Char) : Bool :=
  c != '\x7b' && c != '\x7d' && c != '\n'

def Plain (text : String) : Prop :=
  ∀ c ∈ text.toList, isPlain c = true

def AllPlain (texts : List String) : Prop :=
  ∀ text ∈ texts, Plain text

instance (text : String) : Decidable (Plain text) :=
  decidable_of_iff (text.toList.all isPlain = true) List.all_eq_true

instance (texts : List String) : Decidable (AllPlain texts) :=
  inferInstanceAs (Decidable (∀ text ∈ texts, Plain text))

theorem plain_ofList {chars : List Char} :
    Plain (String.ofList chars) ↔ ∀ c ∈ chars, isPlain c = true := by
  rw [Plain, String.toList_ofList]

/-- A literal is plain if its characters are. -/
theorem Plain.literal {chars : List Char} (plain : chars.all isPlain = true) :
    Plain (String.ofList chars) :=
  plain_ofList.mpr (List.all_eq_true.mp plain)

/-- A text that is put together is plain if its pieces are. -/
theorem plain_append {first second : String} :
    Plain (first ++ second) ↔ Plain first ∧ Plain second := by
  rw [Plain, String.toList_append, List.forall_mem_append]
  rfl

theorem Plain.append {first second : String} (plain : Plain first) (others : Plain second) :
    Plain (first ++ second) :=
  plain_append.mpr ⟨plain, others⟩

theorem Plain.intercalate {separator : String} (plain : Plain separator) {texts : List String}
    (others : AllPlain texts) : Plain (separator.intercalate texts) := by
  intro c member
  rw [String.toList_intercalate] at member
  induction texts with
  | nil => simp at member
  | cons first rest ih =>
    have later := ih fun text inRest => others text (List.mem_cons_of_mem _ inRest)
    cases rest with
    | nil =>
      simp at member
      exact others first (by simp) c member
    | cons second more =>
      simp only [List.map_cons, List.intercalate_cons_cons, List.mem_append] at member later
      rcases member with (inFirst | between) | behind
      · exact others first (by simp) c inFirst
      · exact plain c between
      · exact later behind

/-! ## Derived spellings -/

theorem isPlain_upperChar {c : Char} (plain : isPlain c = true) :
    isPlain (Ident.upperChar c) = true := by
  by_cases lower : 'a' ≤ c ∧ c ≤ 'z'
  · exact Ident.of_lower lower (by decide)
  · rwa [Ident.upperChar, if_neg lower]

section Spellings

variable {ident : Ident} (plain : Plain ident.text)
include plain

theorem plain_className : Plain ident.className := by
  rw [Ident.className, plain_ofList]
  rw [Plain] at plain
  cases chars : ident.text.toList with
  | nil => simp [Ident.classChars]
  | cons first rest =>
    rw [chars, List.forall_mem_cons] at plain
    exact List.forall_mem_cons.mpr ⟨isPlain_upperChar plain.1, plain.2⟩

theorem plain_constant : Plain ident.constant := by
  intro c member
  rcases Ident.mem_constant member with rfl | ⟨d, inText, rfl⟩
  · rfl
  · exact isPlain_upperChar (plain d inText)

theorem plain_member : Plain ident.member :=
  .append (.literal rfl) plain

end Spellings

theorem isPlain_of_isDigit {c : Char} (digit : c.isDigit = true) : isPlain c = true := by
  have digits : ∀ code ≤ 57, 48 ≤ code → isPlain (Char.ofNat code) = true := by decide
  have bounds : 48 ≤ c.toNat ∧ c.toNat ≤ 57 := by
    simpa [Char.isDigit, UInt32.le_iff_toNat_le] using digit
  have plain := digits c.toNat bounds.2 bounds.1
  rwa [Char.ofNat_toNat] at plain

theorem plain_toString (n : Nat) : Plain (toString n) := by
  rw [Nat.toString_eq_repr, Nat.repr, plain_ofList]
  intro c member
  exact isPlain_of_isDigit (Nat.isDigit_of_mem_toDigits (by decide) (by decide) member)

namespace Setup

theorem mem_variantPiece {before : Option Char} {c d : Char} (member : d ∈ variantPiece before c) :
    d = '_' ∨ d = Ident.upperChar c := by
  unfold variantPiece at member
  extract_lets begins at member
  clear_value begins
  cases begins with
  | true => simpa using member
  | false => exact .inr (by simpa using member)

theorem plain_variant {wrapperType : String} (plain : Plain wrapperType) :
    Plain (variant wrapperType) := by
  have chars : ∀ (list : List Char) (before : Option Char),
      (∀ c ∈ list, isPlain c = true) → ∀ d ∈ variantChars before list, isPlain d = true := by
    intro list
    induction list with
    | nil => simp [variantChars]
    | cons first rest ih =>
      intro before plain
      rw [List.forall_mem_cons] at plain
      rw [variantChars, List.forall_mem_append]
      refine ⟨fun d member => ?_, ih _ plain.2⟩
      rcases mem_variantPiece member with rfl | rfl
      · rfl
      · exact isPlain_upperChar plain.1
  rw [variant, plain_ofList]
  exact chars _ none plain

theorem plain_quoted {text : String} {escape : Char → List Char} (plain : Plain text)
    (escaped : ∀ c, ∀ d ∈ escape c, d = c ∨ d = '\\') :
    Plain (String.ofList ('"' :: (text.toList.flatMap escape ++ ['"']))) := by
  rw [plain_ofList]
  intro d member
  simp only [List.mem_cons, List.mem_append, List.mem_flatMap, List.not_mem_nil, or_false]
    at member
  rcases member with rfl | ⟨c, inText, inPiece⟩ | rfl
  · rfl
  · rcases escaped c d inPiece with rfl | rfl
    · exact plain d inText
    · rfl
  · rfl

end Setup

/-! ## Texts of the parts of a definition -/

theorem Argument.title_mem_texts (argument : Argument) : argument.title ∈ argument.texts := by
  unfold Argument.title
  split <;> simp [Argument.texts]

theorem Parameter.argument_texts_subset (parameter : Parameter) :
    parameter.argument.texts ⊆ parameter.texts :=
  List.subset_append_left _ _

theorem EnumDescription.title_mem_texts (description : EnumDescription) :
    description.title ∈ description.texts := by
  unfold EnumDescription.title
  split <;> simp [EnumDescription.texts]

theorem EnumParameter.description_texts_subset {enumeration : EnumParameter}
    {description : EnumDescription} (member : description ∈ enumeration.descriptions) :
    description.texts ⊆ enumeration.texts := fun _ inDescription =>
  List.mem_append_right _ (List.mem_flatMap_of_mem member inDescription)

namespace Node

theorem parameter_texts_subset {node : Node} {parameter : Parameter}
    (given : node.parameter? = some parameter) : parameter.texts ⊆ node.texts := by
  intro text member
  cases node with
  | parameter p =>
    cases given
    exact member
  | numeric n =>
    cases given
    simp [Node.texts, NumericParameter.texts, member]
  | enumeration e =>
    cases given
    simp [Node.texts, EnumParameter.texts, member]
  | _ => cases given

theorem argument_texts_subset {node : Node} {argument : Argument}
    (given : node.argument? = some argument) : argument.texts ⊆ node.texts := by
  intro text member
  cases node with
  | constant c => cases given
  | parameter p =>
    cases given
    simp [Node.texts, Parameter.texts, member]
  | numeric n =>
    cases given
    simp [Node.texts, NumericParameter.texts, Parameter.texts, member]
  | enumeration e =>
    cases given
    simp [Node.texts, EnumParameter.texts, Parameter.texts, member]
  | _ =>
    cases given
    exact member

theorem ident_mem_texts (node : Node) : node.ident.text ∈ node.texts := by
  cases given : node.argument? with
  | some argument =>
    have same : node.ident = argument.ident := by
      cases node <;> cases given <;> rfl
    rw [same]
    exact argument_texts_subset given (by simp [Argument.texts])
  | none =>
    cases node with
    | constant c => simp [Node.texts, Node.ident]
    | _ => cases given

end Node

theorem MethodOption.node_texts_subset {option : MethodOption} {node : Node}
    (member : node ∈ option.arguments) : node.texts ⊆ option.texts := fun _ inNode =>
  List.mem_append_right _ (List.mem_flatMap_of_mem member inNode)

theorem MethodOption.item_texts_subset {option : MethodOption} {item : Item}
    (member : item ∈ option.items) : item.ownTexts ⊆ option.texts := fun _ inItem =>
  List.mem_append_left _ (List.mem_append_right _ (List.mem_flatMap_of_mem member inItem))

theorem Method.option_texts_subset {method : Method} {option : MethodOption}
    (member : option ∈ method.options) : option.texts ⊆ method.texts := fun _ inOption =>
  List.mem_append_right _ (List.mem_flatMap_of_mem member inOption)

theorem Package.method_texts_subset {package : Package} {method : Method}
    (member : method ∈ package.methods) : method.texts ⊆ package.texts := fun _ inMethod =>
  List.mem_cons_of_mem _ (List.mem_flatMap_of_mem member inMethod)

/-- A compound is a call, of a function that its constructor or the conventions name. -/
theorem Compound.exists_function (config : Config) (compound : Compound) :
    ∃ function, (function ∈ config.texts ∨ function ∈ compound.constructor.texts) ∧
      compound.expression config = function ++ "(" ++
        ", ".intercalate (compound.arguments.map fun node => config.dataName node.ident) ++ ")" := by
  rw [expression]
  cases compound.constructor with
  | size => exact ⟨config.sizeType, .inl (by simp [Config.texts]), rfl⟩
  | call name => exact ⟨name, .inr (by simp [Constructor.texts]), rfl⟩

/-- The kind of a value is checked by one of three functions. -/
theorem Access.kindCheck?_cases {node : Node} {check : String}
    (checked : kindCheck? node = some check) :
    check = "checkMatrixValue" ∨ check = "checkNumericValue" ∨ check = "checkEnumValue" := by
  unfold kindCheck? at checked
  split at checked
  · split at checked
    · exact .inl (Option.some.inj checked).symm
    · cases checked
  · exact .inr (.inl (Option.some.inj checked).symm)
  · exact .inr (.inr (Option.some.inj checked).symm)
  · cases checked

/-! ## Plain parts of a definition -/

section Arguments

variable {argument : Argument} (plain : AllPlain argument.texts)
include plain

theorem AllPlain.spelling : Plain argument.ident.text := plain _ (by simp [Argument.texts])

theorem AllPlain.nativeType : Plain argument.nativeType := plain _ (by simp [Argument.texts])

theorem AllPlain.wrapperType : Plain argument.wrapperType := plain _ (by simp [Argument.texts])

theorem AllPlain.titleLiteral : Plain (Setup.titleLiteral argument) := by
  rw [Setup.titleLiteral_eq]
  refine Setup.plain_quoted (plain _ argument.title_mem_texts) fun c d member => ?_
  unfold Setup.titleChar at member
  split at member <;> grind

end Arguments

theorem AllPlain.parameter {node : Node} (plain : AllPlain node.texts) {parameter : Parameter}
    (given : node.parameter? = some parameter) : AllPlain parameter.texts := fun text member =>
  plain text (Node.parameter_texts_subset given member)

theorem AllPlain.argumentOf {node : Node} (plain : AllPlain node.texts) {argument : Argument}
    (given : node.argument? = some argument) : AllPlain argument.texts := fun text member =>
  plain text (Node.argument_texts_subset given member)

theorem AllPlain.ident {node : Node} (plain : AllPlain node.texts) : Plain node.ident.text :=
  plain _ node.ident_mem_texts

theorem AllPlain.argument {parameter : Parameter} (plain : AllPlain parameter.texts) :
    AllPlain parameter.argument.texts := fun text member =>
  plain text (parameter.argument_texts_subset member)

theorem AllPlain.default {parameter : Parameter} (plain : AllPlain parameter.texts)
    {value : String} (given : parameter.default = some value) : Plain value :=
  plain value (by simp [Parameter.texts, given])

theorem AllPlain.description {enumeration : EnumParameter} (plain : AllPlain enumeration.texts)
    {description : EnumDescription} (member : description ∈ enumeration.descriptions) :
    AllPlain description.texts := fun text inDescription =>
  plain text (EnumParameter.description_texts_subset member inDescription)

theorem AllPlain.nameLiteral {description : EnumDescription}
    (plain : AllPlain description.texts) : Plain (Setup.nameLiteral description) := by
  rw [Setup.nameLiteral_eq]
  refine Setup.plain_quoted (plain _ description.title_mem_texts) fun c d member => ?_
  unfold Setup.nameChar at member
  split at member <;> grind

theorem AllPlain.optionIdent {option : MethodOption} (plain : AllPlain option.texts) :
    Plain option.ident.text :=
  plain _ (by simp [MethodOption.texts])

theorem AllPlain.node {option : MethodOption} (plain : AllPlain option.texts) {node : Node}
    (member : node ∈ option.arguments) : AllPlain node.texts := fun text inNode =>
  plain text (MethodOption.node_texts_subset member inNode)

theorem AllPlain.option {method : Method} (plain : AllPlain method.texts) {option : MethodOption}
    (member : option ∈ method.options) : AllPlain option.texts := fun text inOption =>
  plain text (Method.option_texts_subset member inOption)

theorem AllPlain.methodIdent {method : Method} (plain : AllPlain method.texts) :
    Plain method.ident.text :=
  plain _ (by simp [Method.texts])

theorem AllPlain.method {package : Package} (plain : AllPlain package.texts) {method : Method}
    (member : method ∈ package.methods) : AllPlain method.texts := fun text inMethod =>
  plain text (Package.method_texts_subset member inMethod)

theorem AllPlain.packageIdent {package : Package} (plain : AllPlain package.texts) :
    Plain package.ident.text :=
  plain _ List.mem_cons_self

section Conventions

variable {config : Config} (plain : AllPlain config.texts)
include plain

theorem AllPlain.runtime {name : String} (named : Plain name) : Plain (config.runtime name) := by
  have space : Plain config.runtimeNamespace := plain _ (by simp [Config.texts])
  exact .append (.append space (.literal rfl)) named

theorem AllPlain.dataName {ident : Ident} (named : Plain ident.text) :
    Plain (config.dataName ident) :=
  .append named (plain _ (by simp [Config.texts]))

end Conventions
end OperatorGen
