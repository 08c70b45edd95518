import OperatorGen.Proofs.Emission.Nesting
import OperatorGen.Proofs.Text.Occurrence

/-!
# Words in the emitted code

What the emitters write is put together from literals and from the texts of the definition
and the conventions. If none of these texts has the word `runtime` in it, then neither has a
spelling that is derived from one, nor a line that is put together from them, as all
literals keep their neighbours apart. The word comes in by two doors only: the checks of
rules have it in a literal, and the name of a native variable is put together from two
texts with nothing in between. What is emitted without rules and without such names is shown
to lack the word, emitter by emitter.
-/
namespace OperatorGen

def AllLack (word : String) (texts : List String) : Prop :=
  ∀ text ∈ texts, Lacks word text

instance (word : String) (texts : List String) : Decidable (AllLack word texts) :=
  inferInstanceAs (Decidable (∀ text ∈ texts, Lacks word text))

theorem isWord_runtime : IsWord "runtime" := by decide

/-! ## Derived spellings -/

section Spellings

variable {ident : Ident}

/-- The class form has a new first letter, with which no lower case word begins. -/
theorem lacks_className (lacks : Lacks "runtime" ident.text) : Lacks "runtime" ident.className := by
  rw [Ident.className]
  cases chars : ident.text.toList with
  | nil => decide
  | cons first rest =>
    rw [Lacks, Occurs, chars] at lacks
    rw [lacks_ofList, Ident.classChars]
    intro inside
    rcases List.infix_cons_iff.mp inside with begins | later
    · obtain ⟨same, -⟩ := List.cons_prefix_cons.mp
        (show 'r' :: ['u', 'n', 't', 'i', 'm', 'e'] <+: Ident.upperChar first :: rest from begins)
      exact Ident.not_lower_upperChar first (same ▸ by decide)
    · exact lacks (List.infix_cons later)

theorem lacks_constant (ident : Ident) : Lacks "runtime" ident.constant :=
  lacks_of_not_mem (c := 'r') (by decide) fun member =>
    Ident.not_lower_of_mem_constant member (by decide)

theorem lacks_member (lacks : Lacks "runtime" ident.text) : Lacks "runtime" ident.member :=
  .behind rfl lacks

end Spellings

theorem lacks_toString (n : Nat) : Lacks "runtime" (toString n) := by
  refine lacks_of_not_mem (c := 'r') (by decide) fun member => ?_
  rw [Nat.toString_eq_repr, Nat.repr, String.toList_ofList] at member
  have digit := Nat.isDigit_of_mem_toDigits (by decide) (by decide) member
  exact absurd digit (by decide)

namespace Setup

theorem lacks_variant (wrapperType : String) : Lacks "runtime" (variant wrapperType) := by
  have chars : ∀ (list : List Char) (before : Option Char), 'r' ∉ variantChars before list := by
    intro list
    induction list with
    | nil => exact fun _ => List.not_mem_nil
    | cons first rest ih =>
      intro before
      rw [variantChars, List.mem_append, not_or]
      refine ⟨fun member => ?_, ih _⟩
      rcases mem_variantPiece member with same | same
      · cases same
      · exact Ident.not_lower_upperChar first (same ▸ by decide)
  refine lacks_of_not_mem (c := 'r') (by decide) ?_
  rw [variant, String.toList_ofList]
  exact chars _ none

/-- An escaped text between quotes. -/
theorem lacks_quoted {text : String} {escape : Char → List Char} (lacks : Lacks "runtime" text)
    (escaped : ∀ c, escape c = [c] ∨ escape c = ['\\', c]) :
    Lacks "runtime" (String.ofList ('"' :: (text.toList.flatMap escape ++ ['"']))) := by
  have quote : '"' ∉ "runtime".toList := by decide
  rw [lacks_ofList, ← List.nil_append ('"' :: _), infix_append_cons_iff quote,
    infix_append_cons_iff quote, not_or, not_or]
  refine ⟨by decide, ?_, by decide⟩
  exact fun inside => lacks (infix_of_infix_escaped escaped (by decide) inside)

theorem lacks_titleLiteral {argument : Argument} (lacks : AllLack "runtime" argument.texts) :
    Lacks "runtime" (titleLiteral argument) := by
  rw [titleLiteral_eq]
  refine lacks_quoted (lacks _ argument.title_mem_texts) fun c => ?_
  unfold titleChar
  split <;> grind

theorem lacks_nameLiteral {description : EnumDescription}
    (lacks : AllLack "runtime" description.texts) :
    Lacks "runtime" (nameLiteral description) := by
  rw [nameLiteral_eq]
  refine lacks_quoted (lacks _ description.title_mem_texts) fun c => ?_
  unfold nameChar
  split <;> grind

end Setup

/-! ## Texts of the parts of a definition -/

namespace AllLack

variable {word : String}

theorem spelling {argument : Argument} (lacks : AllLack word argument.texts) :
    Lacks word argument.ident.text := lacks _ (by simp [Argument.texts])

theorem nativeType {argument : Argument} (lacks : AllLack word argument.texts) :
    Lacks word argument.nativeType := lacks _ (by simp [Argument.texts])

theorem wrapperType {argument : Argument} (lacks : AllLack word argument.texts) :
    Lacks word argument.wrapperType := lacks _ (by simp [Argument.texts])

theorem argument {parameter : Parameter} (lacks : AllLack word parameter.texts) :
    AllLack word parameter.argument.texts := fun text member =>
  lacks text (parameter.argument_texts_subset member)

theorem ident {node : Node} (lacks : AllLack word node.texts) : Lacks word node.ident.text :=
  lacks _ node.ident_mem_texts

theorem description {enumeration : EnumParameter} (lacks : AllLack word enumeration.texts)
    {description : EnumDescription} (member : description ∈ enumeration.descriptions) :
    AllLack word description.texts := fun text inDescription =>
  lacks text (EnumParameter.description_texts_subset member inDescription)

theorem node {option : MethodOption} (lacks : AllLack word option.texts) {node : Node}
    (member : node ∈ option.arguments) : AllLack word node.texts := fun text inNode =>
  lacks text (MethodOption.node_texts_subset member inNode)

theorem option {method : Method} (lacks : AllLack word method.texts) {option : MethodOption}
    (member : option ∈ method.options) : AllLack word option.texts := fun text inOption =>
  lacks text (Method.option_texts_subset member inOption)

/-- A name of the runtime, in a namespace that lacks the word. -/
theorem runtime {config : Config} (conventions : AllLack "runtime" config.texts) {name : String}
    (named : Lacks "runtime" name) : Lacks "runtime" (config.runtime name) :=
  .around (conventions _ (by simp [Config.texts])) rfl named

end AllLack

/-! ## Access to parameters -/

namespace Access

theorem lacks_kindCheck {node : Node} {check : String} (checked : kindCheck? node = some check) :
    Lacks "runtime" check := by
  rcases kindCheck?_cases checked with rfl | rfl | rfl
  · exact .literal rfl
  · exact .literal rfl
  · exact .literal rfl

theorem omits_getCase {ident : Ident} (lacks : Lacks "runtime" ident.text) :
    Omits "runtime" (getCase ident) :=
  .append (.line (.before (.behind rfl (lacks_constant ident)) rfl))
    (.nested (.line (.before (.behind rfl (lacks_member lacks)) rfl)))

variable {config : Config} (conventions : AllLack "runtime" config.texts)
include conventions

theorem omits_idSwitch {cases : List Step} (omits : Omits "runtime" cases) :
    Omits "runtime" (idSwitch config cases) := by
  have refuses :
      Lacks "runtime" ("throw " ++ config.runtime "WrongParameterId" ++ "(id, *this);") :=
    .before (.behind rfl (conventions.runtime (.literal rfl))) rfl
  refine .append (.append (.append (.cons (.literal rfl) (.line (.literal rfl))) omits) ?_)
    (.line (.literal rfl))
  exact .append (.line (.literal rfl)) (.nested (.line refuses))

theorem omits_getter {className : String} (named : Lacks "runtime" className) {ids : DataIds}
    (lacks : ∀ node ∈ ids.parameters, AllLack "runtime" node.texts) :
    Omits "runtime" (getter config className ids) := by
  refine .append (.line ?_) (.scope isWord_runtime (omits_idSwitch conventions
    (.flatMap fun node kept => omits_getCase (lacks node kept).ident)))
  exact .before (.around (.behind rfl (conventions.runtime (.literal rfl))) rfl named) rfl

/-- Without rules, the case that sets a parameter lacks the word. -/
theorem omits_setCase {parameter : Parameter} (lacks : AllLack "runtime" parameter.texts)
    (unchecked : parameter.rules = []) {check : Option String}
    (checked : ∀ name ∈ check, Lacks "runtime" name) :
    Omits "runtime" (setCase config parameter check) := by
  have ident : Lacks "runtime" parameter.argument.ident.text := lacks.argument.spelling
  have type : Lacks "runtime" (config.runtime parameter.argument.wrapperType) :=
    conventions.runtime lacks.argument.wrapperType
  have kind : Omits "runtime" (check.toList.map (kindCheckStep parameter.argument.ident)) :=
    .map fun name member => .before
      (.around (checked name (Option.mem_toList.mp member)) rfl (lacks_member ident)) rfl
  have rules : Omits "runtime" parameter.checks := by
    rw [Parameter.checks, unchecked]
    exact .nil
  refine .append (.line (.before (.behind rfl (lacks_constant _)) rfl))
    (.nested (.append (.scope isWord_runtime (.append (.append (.append (.line ?_) kind) rules)
      (.line (.before (lacks_member ident) rfl)))) (.line (.literal rfl))))
  exact .before (.around (.around (.behind rfl type) rfl
    (conventions.runtime (.literal rfl))) rfl type) rfl

theorem omits_setNodeCase {node : Node} (lacks : AllLack "runtime" node.texts)
    (unchecked : node.rules = []) : Omits "runtime" (setNodeCase config node) := by
  rw [setNodeCase]
  cases given : node.parameter? with
  | none => exact .nil
  | some parameter =>
    rw [Node.rules, given] at unchecked
    exact omits_setCase conventions
      (fun text member => lacks text (Node.parameter_texts_subset given member)) unchecked
      fun _ => lacks_kindCheck

theorem omits_setter {className : String} (named : Lacks "runtime" className) {cases : List Step}
    (omits : Omits "runtime" cases) : Omits "runtime" (setter config className cases) := by
  have tries := omits_idSwitch conventions omits
  refine .append (.line ?signature) (.scope isWord_runtime (.append (.append (.append
    (.line (.literal rfl)) (.scope isWord_runtime tries)) (.line ?catches))
    (.scope isWord_runtime (.line ?throws))))
  case signature =>
    exact .before (.around (.behind rfl named) rfl (conventions.runtime (.literal rfl))) rfl
  case catches => exact .before (.behind rfl (conventions.runtime (.literal rfl))) rfl
  case throws => exact .before (.behind rfl (conventions.runtime (.literal rfl))) rfl

end Access

/-! ## Setup -/

namespace Setup

theorem omits_separated {texts : List String} (lacks : AllLack "runtime" texts) :
    Omits "runtime" ((separated texts).map .line) := by
  induction texts with
  | nil => exact .nil
  | cons first rest ih =>
    have head : Lacks "runtime" first := lacks first List.mem_cons_self
    cases rest with
    | nil => exact .line head
    | cons second others =>
      exact .cons (.before head rfl)
        (ih fun text member => lacks text (List.mem_cons_of_mem _ member))

theorem lacks_initialValue {node : Node} (lacks : AllLack "runtime" node.texts) :
    Lacks "runtime" (initialValue node) := by
  unfold initialValue
  split
  · exact .literal rfl
  · next default given =>
    obtain ⟨parameter, isParameter, hasDefault⟩ := Option.bind_eq_some_iff.mp given
    have value : Lacks "runtime" default :=
      lacks _ (Node.parameter_texts_subset isParameter (by simp [Parameter.texts, hasDefault]))
    split
    · split
      · exact lacks_toString _
      · exact value
    · exact value

/-! ### Options -/

/-- A switch on the data flow brings no longer word that has this one as a part. -/
theorem omits_forEachOption {word : String} (isWord : IsWord word) (longer : Occurs "runtime" word)
    {ids : DataIds} {method : Method} {body : MethodOption → List Step}
    (omits : ∀ option ∈ method.options, Omits word (body option)) :
    Omits word (forEachOption ids method body) := by
  have switch : Lacks "runtime" ("switch(int(" ++ dataFlow.member ++ "))") :=
    .before (.behind rfl (lacks_member (.literal rfl))) rfl
  have label (option : MethodOption) :
      Lacks "runtime" ("case(" ++ option.ident.constant ++ "):") :=
    .before (.behind rfl (lacks_constant _)) rfl
  have literal {text : String} (lacks : Lacks "runtime" text) : Lacks word text :=
    lacks.of_part longer
  unfold forEachOption
  split
  · refine .append (.append (.cons (literal switch) (.line (literal (.literal rfl))))
      (.flatMap fun option member => ?_)) (.line (literal (.literal rfl)))
    exact .append (.line (literal (label option))) (.nested
      (.append (.scope isWord (omits option member)) (.line (literal (.literal rfl)))))
  · split
    · next option first => exact omits option (List.mem_of_mem_head? first)
    · exact .nil

theorem omits_afterSwitch (ids : DataIds) : Omits "runtime" (afterSwitch ids) := by
  unfold afterSwitch
  split
  · exact .line (.literal rfl)
  · exact .nil

/-! ### Descriptions -/

theorem lacks_parameterVariable {parameter : Parameter}
    (lacks : AllLack "runtime" parameter.texts) :
    Lacks "runtime" (parameterVariable parameter) :=
  .before (lacks_member lacks.argument.spelling) rfl

theorem omits_boundStep {holder type setter : String} (held : Lacks "runtime" holder)
    (typed : Lacks "runtime" type) (sets : Lacks "runtime" setter) {bound : Option String}
    (lacks : ∀ value ∈ bound, Lacks "runtime" value) :
    Omits "runtime" (boundStep holder type setter bound) :=
  .map fun value member => .before (.around (.around (.around held rfl sets) rfl typed) rfl
    (lacks value (Option.mem_toList.mp member))) rfl

variable {config : Config} (conventions : AllLack "runtime" config.texts)
include conventions

theorem omits_constructor {className : String} (named : Lacks "runtime" className) {ids : DataIds}
    (lacks : ∀ node ∈ ids.parameters, AllLack "runtime" node.texts) :
    Omits "runtime" (constructor config className ids) := by
  refine .append (.append (.line (.before (.around named rfl named) rfl))
    (omits_separated (List.forall_mem_cons.mpr ⟨?base, ?members⟩))) (.scope isWord_runtime .nil)
  case base => exact .before (.behind rfl (conventions.runtime (.literal rfl))) rfl
  case members =>
    intro text member
    obtain ⟨node, kept, rfl⟩ := List.mem_map.mp member
    exact .before (.around (.behind rfl (lacks_member (lacks node kept).ident)) rfl
      (lacks_initialValue (lacks node kept))) rfl

theorem omits_describeParameter {parameter : Parameter} (lacks : AllLack "runtime" parameter.texts)
    {make : String} (makes : Lacks "runtime" make) {details : List Step}
    (omits : Omits "runtime" details) :
    Omits "runtime" (describeParameter config parameter make details) := by
  have holder := lacks_parameterVariable lacks
  have access : Lacks "runtime" (if parameter.isInit then "NONE_WRITE" else "ACTIVATED_WRITE") := by
    split
    · exact .literal rfl
    · exact .literal rfl
  refine .append (.append (.cons ?created (.cons ?mode (.line ?titled))) omits)
    (.cons (.before (.behind rfl holder) rfl) (.line (.literal rfl)))
  case created => exact .before (.around holder rfl makes) rfl
  case mode =>
    exact .before (.around (.around holder rfl (conventions.runtime (.literal rfl))) rfl access) rfl
  case titled => exact .before (.around holder rfl (lacks_titleLiteral lacks.argument)) rfl

theorem omits_describePlain {parameter : Parameter} (lacks : AllLack "runtime" parameter.texts) :
    Omits "runtime" (describePlain config parameter) := by
  have made : Lacks "runtime" (if parameter.argument.wrapperType = "Matrix"
      then "MatrixParameter" else "Parameter") := by
    split
    · exact .literal rfl
    · exact .literal rfl
  refine omits_describeParameter conventions lacks ?_ .nil
  exact .before (.around (.around (.around (conventions.runtime made) rfl (lacks_constant _)) rfl
    (conventions.runtime (.literal rfl))) rfl (lacks_variant _)) rfl

theorem omits_describeNumeric {numeric : NumericParameter}
    (lacks : AllLack "runtime" numeric.texts) :
    Omits "runtime" (describeNumeric config numeric) := by
  have parameter : AllLack "runtime" numeric.parameter.texts := fun text member =>
    lacks text (by simp [NumericParameter.texts, member])
  have type := conventions.runtime parameter.argument.wrapperType
  have bounds {setter : String} (sets : Lacks "runtime" setter) {bound : Option String}
      (given : bound.toList ⊆ numeric.texts) :=
    omits_boundStep (lacks_parameterVariable parameter) type sets fun value member =>
      lacks value (given (Option.mem_toList.mpr member))
  refine omits_describeParameter conventions parameter ?_ (.append (.append
    (bounds (.literal rfl) ?min) (bounds (.literal rfl) ?max)) (bounds (.literal rfl) ?step))
  case min => exact fun value member => by simp [NumericParameter.texts, member]
  case max => exact fun value member => by simp [NumericParameter.texts, member]
  case step => exact fun value member => by simp [NumericParameter.texts, member]
  exact .before (.around (.around (conventions.runtime (.literal rfl)) rfl type) rfl
    (lacks_constant _)) rfl

theorem omits_describeEnum {enumeration : EnumParameter}
    (lacks : AllLack "runtime" enumeration.texts) :
    Omits "runtime" (describeEnum config enumeration) := by
  have parameter : AllLack "runtime" enumeration.parameter.texts := fun text member =>
    lacks text (by simp [EnumParameter.texts, member])
  refine omits_describeParameter conventions parameter
    (.before (.around (conventions.runtime (.literal rfl)) rfl (lacks_constant _)) rfl) ?_
  rw [List.mapIdx_eq_zipIdx_map]
  refine .map fun entry member => ?_
  obtain ⟨description, index⟩ := entry
  have described : AllLack "runtime" description.texts :=
    lacks.description (List.fst_mem_of_mem_zipIdx member)
  have value : Lacks "runtime"
      (descriptionValue enumeration.parameter.argument.ident index description) := by
    unfold descriptionValue
    split
    · exact lacks_constant _
    · exact lacks_toString _
  exact .before (.around (.around (.around (.around (lacks_parameterVariable parameter) rfl
    (conventions.runtime (.literal rfl))) rfl (conventions.runtime (.literal rfl))) rfl value) rfl
    (lacks_nameLiteral described)) rfl

theorem omits_describeNode {node : Node} (lacks : AllLack "runtime" node.texts) (isInit : Bool) :
    Omits "runtime" (describeNode config isInit node) := by
  unfold describeNode
  split
  · cases node with
    | parameter p => exact omits_describePlain conventions lacks
    | numeric n => exact omits_describeNumeric conventions lacks
    | enumeration e => exact omits_describeEnum conventions lacks
    | _ => exact .nil
  · exact .nil

theorem omits_connectionSteps (side : Side) {option : MethodOption}
    (lacks : AllLack "runtime" option.texts) :
    Omits "runtime" (connectionSteps config side option) := by
  have listed : Lacks "runtime" side.list := by
    cases side <;> exact .literal rfl
  rw [connectionSteps, connections, List.map_flatMap]
  refine .flatMap fun node member => ?_
  unfold connectNode
  split
  · cases given : node.argument? with
    | none => exact .nil
    | some argument =>
      have texts : AllLack "runtime" argument.texts := fun text inArgument =>
        lacks.node member text (Node.argument_texts_subset given inArgument)
      have ident : Lacks "runtime" argument.ident.text := texts.spelling
      have type : Lacks "runtime" (config.runtime "Description") :=
        conventions.runtime (.literal rfl)
      refine .cons ?describe (.cons ?title (.cons ?push (.line (.literal rfl))))
      case describe =>
        exact .before (.around (.around (.around (.around (.around type rfl ident) rfl type) rfl
          (lacks_constant _)) rfl (conventions.runtime (.literal rfl))) rfl (lacks_variant _)) rfl
      case title => exact .before (.around ident rfl (lacks_titleLiteral texts)) rfl
      case push => exact .before (.around listed rfl ident) rfl
  · exact .nil

theorem omits_listFunction {className function element list : String}
    (named : Lacks "runtime" className) (called : Lacks "runtime" function)
    (holds : Lacks "runtime" element) (listed : Lacks "runtime" list) {body : List Step}
    (omits : Omits "runtime" body) :
    Omits "runtime" (listFunction config className function element list body) := by
  have type : Lacks "runtime" ("std::vector<const " ++ config.runtime element ++ "*>") :=
    .before (.behind rfl (conventions.runtime holds)) rfl
  refine .append (.line ?signature) (.scope isWord_runtime (.append (.append
    (.cons (.before (.around type rfl listed) rfl) (.line (.literal rfl))) omits)
    (.line (.before (.behind rfl listed) rfl))))
  case signature => exact .before (.around (.around (.behind rfl type) rfl named) rfl called) rfl

theorem omits_initialization {className : String} (named : Lacks "runtime" className) :
    Omits "runtime" (initialization config className) :=
  .append (.line (.before (.behind rfl named) rfl))
    (.scope isWord_runtime (.line (.before (conventions.runtime (.literal rfl)) rfl)))

end Setup

/-! ## Bodies -/

namespace Body

/-- The arguments whose native variables a statement names. -/
def Statement.natives : Statement → List Ident
  | declare _ ident _ => [ident]
  | allocate _ ident => [ident]
  | call result _ items =>
    result.toList.map Argument.ident ++ (items.flatMap Item.arguments).map Node.ident
  | send ident .wrapped => [ident]
  | _ => []

theorem natives_declarationsOf (option : MethodOption) (node : Node) :
    ∀ statement ∈ declarationsOf option node, ∀ ident ∈ statement.natives, ident = node.ident := by
  cases node with
  | refInput argument target =>
    rw [declarationsOf]
    split
    · unfold declareRefInput guardTarget
      split <;> simp [Statement.natives, Node.ident]
    · simp
  | _ =>
    simp [declarationsOf, declareInput, declareParameter, declareEnum, Statement.natives,
      Node.ident]

theorem natives_sendsOf (node : Node) :
    ∀ statement ∈ sendsOf node, ∀ ident ∈ statement.natives, ident = node.ident := by
  cases node <;> simp [sendsOf, Statement.natives, Node.ident]

/-- The native variables of a body are those of the arguments of the option. -/
theorem natives_ofOption {function : String} {option : MethodOption}
    {statements : List Statement} (made : ofOption function option = .ok statements) :
    ∀ statement ∈ statements, ∀ ident ∈ statement.natives,
      ∃ node ∈ option.arguments, node.ident = ident := by
  intro statement member ident named
  rw [ofOption_eq made] at member
  simp only [List.mem_append, List.mem_flatMap, List.mem_map, List.mem_singleton] at member
  rcases member with
    (((((⟨node, inOption, declares⟩ | ⟨text, -, rfl⟩) | rfl) | rfl) | rfl) | ⟨text, -, rfl⟩) |
      ⟨node, inOption, sends⟩
  · exact ⟨node, inOption, (natives_declarationsOf option node _ declares ident named).symm⟩
  · cases named
  · cases named
  · rcases List.mem_append.mp named with isResult | inItems
    · obtain ⟨argument, given, rfl⟩ := List.mem_map.mp isResult
      obtain ⟨node, inOption, isOutput⟩ :=
        List.exists_of_findSome?_eq_some (Option.mem_toList.mp given)
      refine ⟨node, inOption, ?_⟩
      cases node <;> cases isOutput
      rfl
    · exact List.mem_map.mp inItems
  · cases named
  · cases named
  · exact ⟨node, inOption, (natives_sendsOf node _ sends ident named).symm⟩

section Expressions

theorem lacks_nativeFrom {nativeType expression : String} (lacks : Lacks "runtime" nativeType)
    (expressed : Lacks "runtime" expression) :
    Lacks "runtime" (nativeFrom nativeType expression) := by
  unfold nativeFrom
  split
  · exact .before (.behind rfl expressed) rfl
  · exact .before (.around lacks rfl expressed) rfl

theorem lacks_accessName (access : Access) {ident : Ident} (lacks : Lacks "runtime" ident.text) :
    Lacks "runtime" (accessName access ident) := by
  cases access
  · exact .before lacks rfl
  · exact .before lacks rfl

theorem lacks_containerName {ident : Ident} (lacks : Lacks "runtime" ident.text) :
    Lacks "runtime" (containerName ident) :=
  .before lacks rfl

theorem lacks_of_declare {nativeType : String} {ident : Ident} {initial : Initial}
    (lacks : AllLack "runtime" (Statement.declare nativeType ident initial).texts) :
    Lacks "runtime" nativeType ∧ Lacks "runtime" ident.text := by
  constructor <;> cases initial <;> exact lacks _ (by simp [Statement.texts])

theorem lacks_initial {nativeType : String} {ident : Ident} {initial : Initial}
    (lacks : AllLack "runtime" (Statement.declare nativeType ident initial).texts) :
    Lacks "runtime" (initial.expression nativeType ident) := by
  obtain ⟨native, named⟩ := lacks_of_declare lacks
  cases initial with
  | opened access => exact lacks_nativeFrom native (.before (lacks_accessName access named) rfl)
  | member => exact lacks_nativeFrom native (lacks_member named)
  | converted =>
    exact .before (.around (.behind rfl (lacks_className named)) rfl (lacks_member named)) rfl
  | literal text => exact lacks text (by simp [Statement.texts])

variable {config : Config} (conventions : AllLack "runtime" config.texts)
include conventions

theorem lacks_compound {compound : Compound}
    (own : AllLack "runtime" compound.constructor.texts)
    (natives : ∀ node ∈ compound.arguments, Lacks "runtime::" (config.dataName node.ident)) :
    Lacks "runtime::" (compound.expression config) := by
  have names : ∀ text ∈ compound.arguments.map fun node => config.dataName node.ident,
      Lacks "runtime::" text := List.forall_mem_map.mpr natives
  obtain ⟨function, named, expressed⟩ := compound.exists_function config
  have called : Lacks "runtime" function := named.elim (conventions _) (own _)
  rw [expressed]
  exact .before (.around (called.of_part (by decide)) rfl (.intercalate rfl names (by decide))) rfl

theorem lacks_callArguments {items : List Item}
    (own : AllLack "runtime" (items.flatMap Item.ownTexts))
    (natives : ∀ node ∈ items.flatMap Item.arguments,
      Lacks "runtime::" (config.dataName node.ident)) :
    AllLack "runtime::" (callArguments config items) := by
  intro text member
  obtain ⟨item, inItems, given⟩ := List.mem_filterMap.mp member
  have inner : ∀ node ∈ item.arguments, Lacks "runtime::" (config.dataName node.ident) :=
    fun node inItem => natives node (List.mem_flatMap_of_mem inItems inItem)
  cases item with
  | node n =>
    have named := inner n List.mem_cons_self
    cases n <;> cases given <;> exact named
  | compound c =>
    cases given
    exact lacks_compound conventions
      (fun text inItem => own text (List.mem_flatMap_of_mem inItems inItem)) inner

/-- The code of a statement lacks a word of the runtime if its texts lack the word `runtime`, and
    no native variable in it has the word. -/
theorem omits_statement {statement : Statement} (lacks : AllLack "runtime" statement.texts)
    (natives : ∀ ident ∈ statement.natives, Lacks "runtime::" (config.dataName ident)) :
    Omits "runtime::" (statement.steps config) := by
  have longer : Occurs "runtime" "runtime::" := by decide
  -- A spelling and the suffix of native variables may make up `runtime` together, so where one is
  -- named only the longer word is known to be missing.
  cases statement with
  | receive ident =>
    have named : Lacks "runtime" ident.text := lacks _ (by simp [Statement.texts])
    refine .of_part longer (.line ?_)
    exact .before (.around (.around (conventions.runtime (.literal rfl)) rfl
      (lacks_containerName named)) rfl (lacks_constant _)) rfl
  | openAccess access ident =>
    have named : Lacks "runtime" ident.text := lacks _ (by simp [Statement.texts])
    have type : Lacks "runtime" access.name := by
      cases access <;> exact .literal rfl
    refine .of_part longer (.line ?_)
    exact .before (.around (.around (conventions.runtime type) rfl
      (lacks_accessName access named)) rfl (lacks_containerName named)) rfl
  | guard ident source =>
    have named : Lacks "runtime" ident.text := lacks _ (by simp [Statement.texts])
    have other : Lacks "runtime" source.text := lacks _ (by simp [Statement.texts])
    refine .of_part longer (.append (.line ?_) (.nested (.line ?_)))
    · exact .before (.around (.behind rfl (lacks_containerName named)) rfl
        (lacks_containerName other)) rfl
    · exact .before (.around (.behind rfl (conventions.runtime (.literal rfl))) rfl
        (lacks_constant _)) rfl
  | declare nativeType ident initial =>
    obtain ⟨native, -⟩ := lacks_of_declare lacks
    have value := (lacks_initial lacks).of_part longer
    have named := natives ident (by simp [Statement.natives])
    exact .line (.before (.around (.around (native.of_part longer) rfl named) rfl value) rfl)
  | allocate nativeType ident =>
    have native : Lacks "runtime" nativeType := lacks _ (by simp [Statement.texts])
    have named := natives ident (by simp [Statement.natives])
    exact .line (.before (.around (native.of_part longer) rfl named) rfl)
  | fragment text => exact .of_part longer (.line (lacks text (by simp [Statement.texts])))
  | blank => exact .line (.literal rfl)
  | call result function items =>
    have called : Lacks "runtime" function := lacks _ (by simp [Statement.texts])
    have arguments : AllLack "runtime::" (callArguments config items) :=
      lacks_callArguments conventions
        (fun text member => lacks text (List.mem_append_left _ (List.mem_append_right _ member)))
        (fun node member => natives _ (List.mem_append_right _ (List.mem_map_of_mem member)))
    have expression : Lacks "runtime::" (callExpression function (callArguments config items)) :=
      .before (.around (called.of_part longer) rfl (.intercalate rfl arguments (by decide))) rfl
    cases result with
    | none =>
      refine .line ?_
      rw [resultDeclaration, String.empty_append]
      exact expression
    | some argument =>
      have native : Lacks "runtime" argument.nativeType :=
        lacks _ (by simp [Statement.texts, Argument.texts])
      have named := natives argument.ident (by simp [Statement.natives])
      exact .line (.around (.around (native.of_part longer) rfl named) rfl expression)
  | send ident handed =>
    cases handed with
    | received =>
      have named : Lacks "runtime" ident.text := lacks _ (by simp [Statement.texts])
      refine .of_part longer (.line ?_)
      exact .before (.around (.behind rfl (lacks_constant _)) rfl (lacks_containerName named)) rfl
    | wrapped =>
      have named := natives ident (by simp [Statement.natives])
      have container := (conventions.runtime (.literal rfl : Lacks "runtime" "DataContainer"))
      have constant := (lacks_constant ident).of_part longer
      exact .line (.before (.around (.behind rfl constant) rfl
        (.before (.around (container.of_part longer) rfl named) rfl)) rfl)

end Expressions

end Body

/-! ## Files -/

/-- A line of a text is a part of it. -/
theorem Lines.infix_of_mem_splitFrom {begun chars line : List Char}
    (member : line ∈ splitFrom begun chars) : line <:+: begun.reverse ++ chars := by
  have returned (begun : List Char) : (dropReturn begun).reverse <+: begun.reverse := by
    unfold dropReturn
    split
    · rw [List.reverse_cons]
      exact List.prefix_append _ _
    · exact List.prefix_rfl
  induction begun, chars using splitFrom.induct with
  | case1 begun empty => simp [splitFrom, empty] at member
  | case2 begun some =>
    rw [splitFrom, if_neg some, List.mem_singleton] at member
    rw [member]
    exact (List.prefix_append _ _).isInfix
  | case3 begun rest ih =>
    rw [splitFrom] at member
    rcases List.mem_cons.mp member with rfl | later
    · exact ((returned begun).trans (List.prefix_append _ _)).isInfix
    · exact (ih later).trans
        ((List.suffix_cons _ _).trans (List.suffix_append _ _)).isInfix
  | case4 begun c rest other ih =>
    rw [splitFrom] at member
    · simpa using ih member
    · exact other

namespace Emission

theorem omits_comment {text : String} (lacks : Lacks "runtime" text) :
    Omits "runtime" [comment text] :=
  .line (.behind rfl lacks)

theorem omits_header {method : Method} (named : Lacks "runtime" method.name)
    (documented : Lacks "runtime" method.doc) : Omits "runtime" (header method) := by
  have lines : Omits "runtime" ((Lines.split method.doc).map comment) := by
    refine .map fun text member => .behind rfl ?_
    obtain ⟨line, inDoc, rfl⟩ := List.mem_map.mp member
    refine .of_subtext (Lines.infix_of_mem_splitFrom inDoc) ?_
    rw [List.reverse_nil, List.nil_append, String.ofList_toList]
    exact documented
  unfold header
  split
  · exact lines
  · exact .append (omits_comment named) lines

theorem omits_sections {word : String} {parts : List (List Step)}
    (omits : ∀ part ∈ parts, Omits word part) (blank : Lacks word "") :
    Omits word (sections parts) := by
  induction parts with
  | nil => exact .nil
  | cons first rest ih =>
    rw [List.forall_mem_cons] at omits
    cases rest with
    | nil => exact omits.1
    | cons second others => exact .append (.append omits.1 (.line blank)) (ih omits.2)

theorem omits_enumeration {name : String} (named : Lacks "runtime" name) (idents : List Ident) :
    Omits "runtime" (enumeration name (idents.map Ident.constant)) := by
  refine .append (.append (.cons (.behind rfl named) (.line (.literal rfl))) (.nested ?_))
    (.line (.literal rfl))
  refine Setup.omits_separated fun text member => ?_
  obtain ⟨ident, -, rfl⟩ := List.mem_map.mp member
  exact lacks_constant ident

theorem omits_idEnumerations (ids : DataIds) (method : Method) :
    Omits "runtime" (idEnumerations ids method) := by
  refine .append (omits_enumeration (.literal rfl) _) ?_
  split
  · have name : Lacks "runtime" "DataFlowId" := .literal rfl
    have options := omits_enumeration name (method.options.map MethodOption.ident)
    rw [List.map_map] at options
    exact .append (.line (.literal rfl)) options
  · exact .nil

section Files

variable {config : Config} (conventions : AllLack "runtime" config.texts)
include conventions

theorem omits_constants {package : Package} (named : Lacks "runtime" package.ident.text)
    {className : String} (classNamed : Lacks "runtime" className) :
    Omits "runtime" (constants config package className) := by
  refine .cons ?package (.cons ?version (.line ?type))
  case package => exact .before (.around (.behind rfl classNamed) rfl named) rfl
  case version =>
    exact .before (.around (.around (.around (.around
      (.behind rfl (conventions.runtime (.literal rfl))) rfl classNamed) rfl (lacks_toString _)) rfl
      (lacks_toString _)) rfl (lacks_toString _)) rfl
  case type => exact .before (.around (.behind rfl classNamed) rfl classNamed) rfl

theorem omits_converter {className : String} (named : Lacks "runtime" className)
    {enumeration : EnumParameter} (lacks : AllLack "runtime" enumeration.texts) :
    Omits "runtime" (converter config className enumeration) := by
  have argument : AllLack "runtime" enumeration.parameter.argument.texts :=
    AllLack.argument fun text member => lacks text (List.mem_append_left _ member)
  have cases : Omits "runtime" (enumeration.descriptions.mapIdx convertCase).flatten := by
    rw [List.mapIdx_eq_zipIdx_map, ← List.flatMap_def]
    refine .flatMap fun ⟨description, index⟩ member => ?_
    have native : Lacks "runtime" description.nativeIdent :=
      lacks.description (List.fst_mem_of_mem_zipIdx member) _ (by simp [EnumDescription.texts])
    exact .append (.line (.before (.behind rfl (lacks_toString _)) rfl))
      (.nested (.line (.before (.behind rfl native) rfl)))
  have refuses : Lacks "runtime" ("throw " ++ config.runtime "WrongParameterValue" ++
      "(parameter(" ++ enumeration.parameter.argument.ident.constant ++ "), *this);") :=
    .before (.around (.behind rfl (conventions.runtime (.literal rfl))) rfl (lacks_constant _)) rfl
  have name : Lacks "runtime" (converterName enumeration.parameter.argument.ident) :=
    .behind rfl (lacks_className argument.spelling)
  refine .append (.line ?signature) (.scope isWord_runtime (.append (.append (.append (.append
    (.cons (.literal rfl) (.line (.literal rfl))) cases) (.line (.literal rfl)))
    (.nested (.line refuses))) (.line (.literal rfl))))
  case signature =>
    exact .before (.around (.around (.around argument.nativeType rfl named) rfl name) rfl
      (conventions.runtime (.literal rfl))) rfl

theorem omits_nodeConverter {className : String} (named : Lacks "runtime" className)
    {node : Node} (lacks : AllLack "runtime" node.texts) :
    Omits "runtime" (nodeConverter config className node) := by
  unfold nodeConverter
  split
  · split
    · exact .nil
    · exact .cons (.literal rfl) (omits_converter conventions named lacks)
  · exact .nil

end Files

end Emission
end OperatorGen
