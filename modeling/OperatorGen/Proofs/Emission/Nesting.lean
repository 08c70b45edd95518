import OperatorGen.Proofs.Emission.Bodies
import OperatorGen.Proofs.Emission.Braces
import OperatorGen.Proofs.Emission.Files
import OperatorGen.Proofs.Emission.Sections
import OperatorGen.Proofs.Emission.Texts

/-!
# Nesting of the emitted code

Levels are changed by hand as well as by scopes, by every emitter for itself. Each of them
emits nested steps, whatever plain texts it is given, and so does the whole file
(`nested_fileSteps`): its braces are balanced, and it ends at the level at which it began.
-/
namespace OperatorGen

/-- The rules on the values of a node; only parameters have some. -/
def Node.rules (node : Node) : List Rule :=
  (node.parameter?.map Parameter.rules).getD []

/-! ## Lines -/

/-- A plain text is no brace. -/
theorem Plain.ordinary {text : String} (plain : Plain text) : Ordinary text := by
  have absent : ∀ c, isPlain c = false → c ∉ text.toList := by
    intro c special member
    rw [plain c member] at special
    cases special
  refine ⟨absent '\n' rfl, ?_⟩
  have behind : ∀ c ∈ text.toList.dropWhile (· == ' '), c ∈ text.toList := fun _ inside =>
    (List.dropWhile_sublist _).subset inside
  unfold brace?
  dsimp only
  split
  · next opens => exact absurd (behind '\x7b' (by simp [opens])) (absent _ rfl)
  · next closes => exact absurd (behind '\x7d' (by simp [closes])) (absent _ rfl)
  · next closes => exact absurd (behind '\x7d' (by simp [closes])) (absent _ rfl)
  · rfl

namespace Nested

theorem plain {text : String} (plain : Plain text) : Nested [.line text] :=
  .line plain.ordinary

/-- A line with a block behind it. -/
theorem headed {head close : String} {steps : List Step} (plain : Plain head)
    (nested : Nested steps) (closes : close = "\x7d" ∨ close = "\x7d;") :
    Nested ([.line head, .line "\x7b"] ++ steps ++ [.line close]) :=
  .cons (.plain plain) (.block nested closes)

end Nested

/-! ## Access to parameters -/

theorem nested_parityCheck {parameter : Parameter} (ident : Plain parameter.argument.ident.text)
    {refused message : String} (refuses : Plain refused) (explains : Plain message) :
    Nested (parityCheck parameter refused message) := by
  refine .append (.plain (.append (.append (.literal rfl) refuses) (.literal rfl)))
    (.level (.plain ?_))
  simp only [plain_append, and_assoc]
  exact ⟨.literal rfl, plain_member ident, .literal rfl, explains, .literal rfl⟩

theorem nested_checks {parameter : Parameter} (ident : Plain parameter.argument.ident.text)
    (parity : ∀ rule ∈ parameter.rules, rule.IsParity) : Nested parameter.checks := by
  refine .flatMap fun rule member => ?_
  rcases parity rule member with rfl | rfl
  · exact nested_parityCheck ident (.literal rfl) (.literal rfl)
  · exact nested_parityCheck ident (.literal rfl) (.literal rfl)

namespace Access

theorem nested_getCase {ident : Ident} (plain : Plain ident.text) : Nested (getCase ident) :=
  .append (.plain (.append (.append (.literal rfl) (plain_constant plain)) (.literal rfl)))
    (.level (.plain (.append (.append (.literal rfl) (plain_member plain)) (.literal rfl))))

theorem plain_kindCheck {node : Node} {check : String} (checked : kindCheck? node = some check) :
    Plain check := by
  rcases kindCheck?_cases checked with rfl | rfl | rfl
  · exact .literal rfl
  · exact .literal rfl
  · exact .literal rfl

variable {config : Config} (conventions : AllPlain config.texts)
include conventions

theorem nested_wrongId : Nested (wrongId config) :=
  .append (.plain (.literal rfl))
    (.level (.plain
      (.append (.append (.literal rfl) (conventions.runtime (.literal rfl))) (.literal rfl))))

theorem nested_idSwitch {cases : List Step} (nested : Nested cases) :
    Nested (idSwitch config cases) := by
  rw [idSwitch, List.append_assoc [_, _]]
  exact .headed (.literal rfl) (.append nested (nested_wrongId conventions)) (.inl rfl)

theorem nested_getter {className : String} (named : Plain className) {ids : DataIds}
    (plain : ∀ node ∈ ids.parameters, AllPlain node.texts) :
    Nested (getter config className ids) := by
  refine .append (.plain ?_) (.scope (nested_idSwitch conventions (.flatMap fun node member =>
    nested_getCase (plain node member).ident)))
  simp only [plain_append, and_assoc]
  exact ⟨.literal rfl, conventions.runtime (.literal rfl), .literal rfl, named, .literal rfl⟩

theorem nested_setCase {parameter : Parameter} (plain : AllPlain parameter.texts)
    (parity : ∀ rule ∈ parameter.rules, rule.IsParity) {check : Option String}
    (checked : ∀ name ∈ check, Plain name) : Nested (setCase config parameter check) := by
  have ident : Plain parameter.argument.ident.text := plain.argument.spelling
  have type : Plain (config.runtime parameter.argument.wrapperType) :=
    conventions.runtime plain.argument.wrapperType
  have kind : Nested (check.toList.map (kindCheckStep parameter.argument.ident)) := by
    refine .map fun name member => .plain ?_
    simp only [plain_append, and_assoc]
    exact ⟨checked name (Option.mem_toList.mp member), .literal rfl, plain_member ident,
      .literal rfl⟩
  refine .append (.plain (.append (.append (.literal rfl) (plain_constant ident)) (.literal rfl)))
    (.level (.append (.scope (.append (.append (.append (.plain ?_) kind)
      (nested_checks ident parity)) (.plain (.append (plain_member ident) (.literal rfl)))))
      (.plain (.literal rfl))))
  simp only [plain_append, and_assoc]
  exact ⟨.literal rfl, type, .literal rfl, conventions.runtime (.literal rfl), .literal rfl,
    type, .literal rfl⟩

theorem nested_setNodeCase {node : Node} (plain : AllPlain node.texts)
    (parity : ∀ rule ∈ node.rules, rule.IsParity) : Nested (setNodeCase config node) := by
  rw [setNodeCase]
  cases given : node.parameter? with
  | none => exact .nil
  | some parameter =>
    rw [Node.rules, given] at parity
    exact nested_setCase conventions (plain.parameter given) parity fun _ => plain_kindCheck

theorem nested_setter {className : String} (named : Plain className) {cases : List Step}
    (nested : Nested cases) : Nested (setter config className cases) := by
  have tries := nested_idSwitch conventions nested
  refine .append (.plain ?signature)
    (.scope (.append (.append (.append (.plain (.literal rfl)) (.scope tries)) (.plain ?catches))
      (.scope (.plain ?throws))))
  all_goals simp only [plain_append, and_assoc]
  case signature => exact ⟨.literal rfl, named, .literal rfl,
    conventions.runtime (.literal rfl), .literal rfl⟩
  case catches => exact ⟨.literal rfl, conventions.runtime (.literal rfl), .literal rfl⟩
  case throws => exact ⟨.literal rfl, conventions.runtime (.literal rfl), .literal rfl⟩

end Access

/-! ## Setup -/

namespace Setup

theorem nested_separated {texts : List String} (plain : AllPlain texts) :
    Nested ((separated texts).map .line) := by
  induction texts with
  | nil => exact .nil
  | cons first rest ih =>
    have head : Plain first := plain first List.mem_cons_self
    cases rest with
    | nil => exact .plain head
    | cons second others =>
      exact .cons (.plain (.append head (.literal rfl)))
        (ih fun text member => plain text (List.mem_cons_of_mem _ member))

theorem plain_initialValue {node : Node} (plain : AllPlain node.texts) :
    Plain (initialValue node) := by
  unfold initialValue
  split
  · exact .literal rfl
  · next default given =>
    obtain ⟨parameter, isParameter, hasDefault⟩ := Option.bind_eq_some_iff.mp given
    have plainDefault : Plain default := (plain.parameter isParameter).default hasDefault
    split
    · split
      · exact plain_toString _
      · exact plainDefault
    · exact plainDefault

/-! ### Options -/

theorem nested_optionCase {option : MethodOption} (plain : Plain option.ident.text)
    {body : List Step} (nested : Nested body) : Nested (optionCase option body) :=
  .append (.plain (.append (.append (.literal rfl) (plain_constant plain)) (.literal rfl)))
    (.level (.append (.scope nested) (.plain (.literal rfl))))

theorem nested_forEachOption {method : Method} (plain : AllPlain method.texts) (ids : DataIds)
    {body : MethodOption → List Step} (nested : ∀ option ∈ method.options, Nested (body option)) :
    Nested (forEachOption ids method body) := by
  unfold forEachOption
  split
  · refine .headed (.append (.append (.literal rfl) (plain_member (.literal rfl))) (.literal rfl))
      (.flatMap fun option member => ?_) (.inl rfl)
    exact nested_optionCase (plain.option member).optionIdent (nested option member)
  · split
    · next option first => exact nested option (List.mem_of_mem_head? first)
    · exact .nil

theorem nested_afterSwitch (ids : DataIds) : Nested (afterSwitch ids) := by
  unfold afterSwitch
  split
  · exact .plain (.literal rfl)
  · exact .nil

/-! ### Descriptions -/

theorem plain_parameterVariable {parameter : Parameter} (plain : AllPlain parameter.texts) :
    Plain (parameterVariable parameter) :=
  .append (plain_member plain.argument.spelling) (.literal rfl)

theorem nested_boundStep {holder type setter : String} (held : Plain holder) (typed : Plain type)
    (sets : Plain setter) {bound : Option String} (plain : ∀ value ∈ bound, Plain value) :
    Nested (boundStep holder type setter bound) := by
  refine .map fun value member => .plain ?_
  simp only [plain_append, and_assoc]
  exact ⟨held, .literal rfl, sets, .literal rfl, typed, .literal rfl,
    plain value (Option.mem_toList.mp member), .literal rfl⟩

variable {config : Config} (conventions : AllPlain config.texts)
include conventions

theorem nested_constructor {className : String} (named : Plain className) {ids : DataIds}
    (plain : ∀ node ∈ ids.parameters, AllPlain node.texts) :
    Nested (constructor config className ids) := by
  refine .append (.append
    (.plain (.append (.append (.append named (.literal rfl)) named) (.literal rfl)))
    (nested_separated (List.forall_mem_cons.mpr ⟨?base, ?members⟩))) (.scope .nil)
  case base =>
    exact .append (.append (.literal rfl) (conventions.runtime (.literal rfl))) (.literal rfl)
  case members =>
    intro text member
    obtain ⟨node, kept, rfl⟩ := List.mem_map.mp member
    simp only [plain_append, and_assoc]
    exact ⟨.literal rfl, plain_member (plain node kept).ident, .literal rfl,
      plain_initialValue (plain node kept), .literal rfl⟩

theorem nested_describeParameter {parameter : Parameter} (plain : AllPlain parameter.texts)
    {make : String} (makes : Plain make) {details : List Step} (nested : Nested details) :
    Nested (describeParameter config parameter make details) := by
  have holder := plain_parameterVariable plain
  have access : Plain (if parameter.isInit then "NONE_WRITE" else "ACTIVATED_WRITE") := by
    split
    · exact .literal rfl
    · exact .literal rfl
  refine .append (.append (.cons (.plain ?created) (.cons (.plain ?mode) (.plain ?titled))) nested)
    (.cons (.plain (.append (.append (.literal rfl) holder) (.literal rfl)))
      (.plain (.literal rfl)))
  all_goals simp only [plain_append, and_assoc]
  case created => exact ⟨holder, .literal rfl, makes, .literal rfl⟩
  case mode =>
    exact ⟨holder, .literal rfl, conventions.runtime (.literal rfl), .literal rfl, access,
      .literal rfl⟩
  case titled => exact ⟨holder, .literal rfl, plain.argument.titleLiteral, .literal rfl⟩

theorem nested_describePlain {parameter : Parameter} (plain : AllPlain parameter.texts) :
    Nested (describePlain config parameter) := by
  have made : Plain (if parameter.argument.wrapperType = "Matrix" then "MatrixParameter"
      else "Parameter") := by
    split
    · exact .literal rfl
    · exact .literal rfl
  refine nested_describeParameter conventions plain ?_ .nil
  simp only [plain_append, and_assoc]
  exact ⟨conventions.runtime made, .literal rfl, plain_constant plain.argument.spelling,
    .literal rfl, conventions.runtime (.literal rfl), .literal rfl,
    plain_variant plain.argument.wrapperType, .literal rfl⟩

theorem nested_describeNumeric {numeric : NumericParameter} (plain : AllPlain numeric.texts) :
    Nested (describeNumeric config numeric) := by
  have parameter : AllPlain numeric.parameter.texts := fun text member =>
    plain text (by simp [NumericParameter.texts, member])
  have type := conventions.runtime parameter.argument.wrapperType
  have among {bound : Option String} (inTexts : ∀ value ∈ bound, value ∈ numeric.texts) :
      ∀ value ∈ bound, Plain value := fun value given => plain value (inTexts value given)
  have bounds {setter : String} (sets : Plain setter) {bound : Option String}
      (given : ∀ value ∈ bound, Plain value) :=
    nested_boundStep (plain_parameterVariable parameter) type sets given
  refine nested_describeParameter conventions parameter ?_
    (.append (.append (bounds (.literal rfl) (among fun value given => ?min))
      (bounds (.literal rfl) (among fun value given => ?max)))
      (bounds (.literal rfl) (among fun value given => ?step)))
  case min => simp [NumericParameter.texts, Option.mem_def.mp given]
  case max => simp [NumericParameter.texts, Option.mem_def.mp given]
  case step => simp [NumericParameter.texts, Option.mem_def.mp given]
  simp only [plain_append, and_assoc]
  exact ⟨conventions.runtime (.literal rfl), .literal rfl, type, .literal rfl,
    plain_constant parameter.argument.spelling, .literal rfl⟩

theorem nested_describeEnum {enumeration : EnumParameter} (plain : AllPlain enumeration.texts) :
    Nested (describeEnum config enumeration) := by
  have parameter : AllPlain enumeration.parameter.texts := fun text member =>
    plain text (by simp [EnumParameter.texts, member])
  have ident := plain_constant parameter.argument.spelling
  refine nested_describeParameter conventions parameter
    (.append (.append (.append (conventions.runtime (.literal rfl)) (.literal rfl)) ident)
      (.literal rfl)) ?_
  rw [List.mapIdx_eq_zipIdx_map]
  refine .map fun entry member => .plain ?_
  obtain ⟨description, index⟩ := entry
  have described : AllPlain description.texts :=
    plain.description (List.fst_mem_of_mem_zipIdx member)
  have value : Plain (descriptionValue enumeration.parameter.argument.ident index description) := by
    unfold descriptionValue
    split
    · exact plain_constant (described _ (by simp [EnumDescription.texts]))
    · exact plain_toString _
  simp only [plain_append, and_assoc]
  exact ⟨plain_parameterVariable parameter, .literal rfl,
    conventions.runtime (.literal rfl), .literal rfl, conventions.runtime (.literal rfl),
    .literal rfl, value, .literal rfl, described.nameLiteral, .literal rfl⟩

theorem nested_describeNode {node : Node} (plain : AllPlain node.texts) (isInit : Bool) :
    Nested (describeNode config isInit node) := by
  unfold describeNode
  split
  · cases node with
    | parameter p => exact nested_describePlain conventions plain
    | numeric n => exact nested_describeNumeric conventions plain
    | enumeration e => exact nested_describeEnum conventions plain
    | _ => exact .nil
  · exact .nil

theorem nested_connectionSteps (side : Side) {option : MethodOption}
    (plain : AllPlain option.texts) : Nested (connectionSteps config side option) := by
  have listed : Plain side.list := by
    cases side <;> exact .literal rfl
  rw [connectionSteps, connections, List.map_flatMap]
  refine .flatMap fun node member => ?_
  unfold connectNode
  split
  · cases given : node.argument? with
    | none => exact .nil
    | some argument =>
      have texts : AllPlain argument.texts := (plain.node member).argumentOf given
      have ident : Plain argument.ident.text := texts.spelling
      have type : Plain (config.runtime "Description") := conventions.runtime (.literal rfl)
      refine .cons (.plain ?describe) (.cons (.plain ?title) (.cons (.plain ?push)
        (.plain (.literal rfl))))
      all_goals simp only [plain_append, and_assoc]
      case describe =>
        exact ⟨type, .literal rfl, ident, .literal rfl, type, .literal rfl,
          plain_constant ident, .literal rfl, conventions.runtime (.literal rfl),
          .literal rfl, plain_variant texts.wrapperType, .literal rfl⟩
      case title => exact ⟨ident, .literal rfl, texts.titleLiteral, .literal rfl⟩
      case push => exact ⟨listed, .literal rfl, ident, .literal rfl⟩
  · exact .nil

theorem nested_listFunction {className function element list : String} (named : Plain className)
    (called : Plain function) (holds : Plain element) (listed : Plain list) {body : List Step}
    (nested : Nested body) :
    Nested (listFunction config className function element list body) := by
  refine .append (.plain ?signature) (.scope (.append (.append
    (.cons (.plain ?declaration) (.plain (.literal rfl))) nested)
    (.plain (.append (.append (.literal rfl) listed) (.literal rfl)))))
  all_goals simp only [plain_append, and_assoc]
  case signature =>
    exact ⟨.literal rfl, .literal rfl, conventions.runtime holds, .literal rfl,
      .literal rfl, named, .literal rfl, called, .literal rfl⟩
  case declaration =>
    exact ⟨.literal rfl, conventions.runtime holds, .literal rfl, .literal rfl, listed,
      .literal rfl⟩

theorem nested_initialization {className : String} (named : Plain className) :
    Nested (initialization config className) :=
  .append (.plain (.append (.append (.literal rfl) named) (.literal rfl)))
    (.scope (.plain (.append (conventions.runtime (.literal rfl)) (.literal rfl))))

end Setup

/-! ## Bodies -/

namespace Body

/-- The texts that a statement is put together from. -/
def Statement.texts : Statement → List String
  | receive ident => [ident.text]
  | openAccess _ ident => [ident.text]
  | guard ident source => [ident.text, source.text]
  | declare nativeType ident (.literal text) => [nativeType, ident.text, text]
  | declare nativeType ident _ => [nativeType, ident.text]
  | allocate nativeType ident => [nativeType, ident.text]
  | fragment text => [text]
  | blank => []
  | call result function items =>
    result.toList.flatMap Argument.texts ++ [function] ++ items.flatMap Item.ownTexts ++
      (items.flatMap Item.arguments).flatMap Node.texts
  | send ident _ => [ident.text]

section Texts

variable {holds : String → Prop} {option : MethodOption}

/-- The texts of what is declared for a node are texts of the option. -/
theorem texts_declarationsOf (each : ∀ text ∈ option.texts, holds text) {node : Node}
    (member : node ∈ option.arguments) :
    ∀ statement ∈ declarationsOf option node, ∀ text ∈ statement.texts, holds text := by
  have own : ∀ text ∈ node.texts, holds text := fun text inNode =>
    each text (MethodOption.node_texts_subset member inNode)
  have ident : holds node.ident.text := own _ node.ident_mem_texts
  have native {argument : Argument} (given : node.argument? = some argument) :
      holds argument.nativeType :=
    own _ (Node.argument_texts_subset given (by simp [Argument.texts]))
  cases node with
  | constant c => simp_all [declarationsOf, Statement.texts, Node.texts]
  | output argument => simp [declarationsOf]
  | refInput argument target =>
    rw [declarationsOf]
    split
    · next found resolved =>
      have source : holds found.ident.text :=
        each _ (MethodOption.node_texts_subset (List.mem_of_find?_eq_some resolved)
          found.ident_mem_texts)
      have declared := native rfl
      unfold declareRefInput guardTarget
      split <;> simp_all [Statement.texts, Node.ident]
    · simp
  | _ =>
    have declared := native rfl
    simp_all [declarationsOf, declareInput, declareParameter, declareEnum, Statement.texts,
      Node.ident]

theorem texts_sendsOf {node : Node} (each : ∀ text ∈ node.texts, holds text) :
    ∀ statement ∈ sendsOf node, ∀ text ∈ statement.texts, holds text := by
  have ident : holds node.ident.text := each _ node.ident_mem_texts
  cases node <;> simp_all [sendsOf, Statement.texts, Node.ident]

theorem texts_fragments {node : Node} (each : ∀ text ∈ node.texts, holds text) :
    ∀ text ∈ node.fragmentsBefore ++ node.fragmentsAfter, holds text := by
  intro text member
  cases given : node.argument? with
  | none => simp [Node.fragmentsBefore, Node.fragmentsAfter, given] at member
  | some argument =>
    simp only [Node.fragmentsBefore, Node.fragmentsAfter, given, Option.map_some,
      Option.getD_some, List.mem_append] at member
    refine each text (Node.argument_texts_subset given ?_)
    simpa [Argument.texts, or_assoc] using .inr (.inr (.inr (.inr member)))

/-- The texts of the body of an option are those of the option, and the function that it
    calls. -/
theorem texts_ofOption (each : ∀ text ∈ option.texts, holds text) {function : String}
    (called : holds function) {statements : List Statement}
    (made : ofOption function option = .ok statements) :
    ∀ statement ∈ statements, ∀ text ∈ statement.texts, holds text := by
  have own {node : Node} (member : node ∈ option.arguments) : ∀ text ∈ node.texts, holds text :=
    fun text inNode => each text (MethodOption.node_texts_subset member inNode)
  have fragment {text : String} (given : holds text) :
      ∀ other ∈ (Statement.fragment text).texts, holds other := by
    simpa [Statement.texts] using given
  have blank : ∀ other ∈ Statement.blank.texts, holds other := by simp [Statement.texts]
  have call : ∀ text ∈ (Statement.call (option.arguments.findSome? Node.output?) function
      option.items).texts, holds text := by
    intro text member
    simp only [Statement.texts, List.mem_append, List.mem_singleton] at member
    rcases member with ((inResult | rfl) | inItems) | inNodes
    · obtain ⟨argument, isResult, inArgument⟩ := List.mem_flatMap.mp inResult
      obtain ⟨node, member, isOutput⟩ :=
        List.exists_of_findSome?_eq_some (Option.mem_toList.mp isResult)
      refine own member text (Node.argument_texts_subset ?_ inArgument)
      cases node <;> cases isOutput
      rfl
    · exact called
    · obtain ⟨item, member, inItem⟩ := List.mem_flatMap.mp inItems
      exact each text (MethodOption.item_texts_subset member inItem)
    · obtain ⟨node, member, inNode⟩ := List.mem_flatMap.mp inNodes
      exact own member text inNode
  rw [ofOption_eq made]
  intro statement member
  simp only [List.mem_append, List.mem_flatMap, List.mem_map, List.mem_singleton] at member
  rcases member with
    (((((⟨node, inOption, declares⟩ | ⟨text, ⟨node, inOption, before⟩, rfl⟩) | rfl) | rfl) | rfl) |
      ⟨text, ⟨node, inOption, after⟩, rfl⟩) | ⟨node, inOption, sends⟩
  · exact texts_declarationsOf each inOption statement declares
  · exact fragment (texts_fragments (own inOption) text (List.mem_append_left _ before))
  · exact blank
  · exact call
  · exact blank
  · exact fragment (texts_fragments (own inOption) text (List.mem_append_right _ after))
  · exact texts_sendsOf (own inOption) statement sends

end Texts

section Code

variable {config : Config}

theorem plain_nativeFrom {nativeType expression : String} (plain : Plain nativeType)
    (expressed : Plain expression) : Plain (nativeFrom nativeType expression) := by
  unfold nativeFrom
  split
  · exact .append (.append (.literal rfl) expressed) (.literal rfl)
  · exact .append (.append (.append plain (.literal rfl)) expressed) (.literal rfl)

theorem plain_accessName (access : Access) {ident : Ident} (plain : Plain ident.text) :
    Plain (accessName access ident) := by
  cases access
  · exact .append plain (.literal rfl)
  · exact .append plain (.literal rfl)

theorem plain_of_declare {nativeType : String} {ident : Ident} {initial : Initial}
    (plain : AllPlain (Statement.declare nativeType ident initial).texts) :
    Plain nativeType ∧ Plain ident.text := by
  constructor <;> cases initial <;> exact plain _ (by simp [Statement.texts])

theorem plain_initial {nativeType : String} {ident : Ident} {initial : Initial}
    (plain : AllPlain (Statement.declare nativeType ident initial).texts) :
    Plain (initial.expression nativeType ident) := by
  obtain ⟨native, named⟩ := plain_of_declare plain
  cases initial with
  | opened access =>
    exact plain_nativeFrom native (.append (plain_accessName access named) (.literal rfl))
  | member => exact plain_nativeFrom native (plain_member named)
  | converted =>
    rw [Initial.expression, converterName]
    simp only [plain_append, and_assoc]
    exact ⟨.literal rfl, plain_className named, .literal rfl, plain_member named, .literal rfl⟩
  | literal text => exact plain text (by simp [Statement.texts])

variable (conventions : AllPlain config.texts)
include conventions

theorem plain_compound {compound : Compound} (own : AllPlain compound.constructor.texts)
    (arguments : ∀ node ∈ compound.arguments, Plain node.ident.text) :
    Plain (compound.expression config) := by
  have names : AllPlain (compound.arguments.map fun node => config.dataName node.ident) := by
    intro text member
    obtain ⟨node, inCompound, rfl⟩ := List.mem_map.mp member
    exact conventions.dataName (arguments node inCompound)
  obtain ⟨function, named, expressed⟩ := compound.exists_function config
  have called : Plain function := named.elim (conventions _) (own _)
  rw [expressed]
  exact .append (.append (.append called (.literal rfl)) (.intercalate (.literal rfl) names))
    (.literal rfl)

theorem plain_callArguments {items : List Item} (own : AllPlain (items.flatMap Item.ownTexts))
    (nodes : AllPlain ((items.flatMap Item.arguments).flatMap Node.texts)) :
    AllPlain (callArguments config items) := by
  intro text member
  obtain ⟨item, inItems, given⟩ := List.mem_filterMap.mp member
  have idents : ∀ node ∈ item.arguments, Plain node.ident.text := by
    intro node inItem
    have texts : AllPlain node.texts := fun text inNode => nodes text
      (List.mem_flatMap_of_mem (List.mem_flatMap_of_mem inItems inItem) inNode)
    exact texts.ident
  cases item with
  | node n =>
    have named : Plain (config.dataName n.ident) :=
      conventions.dataName (idents n (by simp [Item.arguments]))
    cases n <;> cases given <;> exact named
  | compound c =>
    cases given
    refine plain_compound conventions (fun text inItem => ?_) idents
    exact own text (List.mem_flatMap_of_mem inItems inItem)

theorem plain_resultDeclaration {result : Option Argument}
    (plain : AllPlain (result.toList.flatMap Argument.texts)) :
    Plain (resultDeclaration config result) := by
  cases result with
  | none => exact .literal rfl
  | some argument =>
    have texts : AllPlain argument.texts := fun text member => plain text (by simp [member])
    exact .append (.append (.append texts.nativeType (.literal rfl))
      (conventions.dataName texts.spelling)) (.literal rfl)

/-- The code of a statement with plain texts is nested. -/
theorem nested_statement {statement : Statement} (plain : AllPlain statement.texts) :
    Nested (statement.steps config) := by
  cases statement with
  | receive ident =>
    have named : Plain ident.text := plain _ (by simp [Statement.texts])
    refine .plain ?_
    simp only [plain_append, and_assoc]
    exact ⟨conventions.runtime (.literal rfl), .literal rfl, .append named (.literal rfl),
      .literal rfl, plain_constant named, .literal rfl⟩
  | openAccess access ident =>
    have named : Plain ident.text := plain _ (by simp [Statement.texts])
    have type : Plain access.name := by
      cases access <;> exact .literal rfl
    refine .plain ?_
    simp only [plain_append, and_assoc]
    exact ⟨conventions.runtime type, .literal rfl, plain_accessName access named, .literal rfl,
      .append named (.literal rfl), .literal rfl⟩
  | guard ident source =>
    have named : Plain ident.text := plain _ (by simp [Statement.texts])
    have other : Plain source.text := plain _ (by simp [Statement.texts])
    refine .append (.plain ?_) (.level (.plain ?_))
    all_goals simp only [plain_append, and_assoc]
    · exact ⟨.literal rfl, .append named (.literal rfl), .literal rfl,
        .append other (.literal rfl), .literal rfl⟩
    · exact ⟨.literal rfl, conventions.runtime (.literal rfl), .literal rfl,
        plain_constant other, .literal rfl⟩
  | declare nativeType ident initial =>
    obtain ⟨native, named⟩ := plain_of_declare plain
    refine .plain ?_
    simp only [plain_append, and_assoc]
    exact ⟨native, .literal rfl, conventions.dataName named, .literal rfl,
      plain_initial plain, .literal rfl⟩
  | allocate nativeType ident =>
    have native : Plain nativeType := plain _ (by simp [Statement.texts])
    have named : Plain ident.text := plain _ (by simp [Statement.texts])
    refine .plain ?_
    simp only [plain_append, and_assoc]
    exact ⟨native, .literal rfl, conventions.dataName named, .literal rfl⟩
  | fragment text => exact .plain (plain text (by simp [Statement.texts]))
  | blank => exact .plain (.literal rfl)
  | call result function items =>
    have called : Plain function := plain _ (by simp [Statement.texts])
    have declared : Plain (resultDeclaration config result) :=
      plain_resultDeclaration conventions fun text member =>
        plain text (List.mem_append_left _ (List.mem_append_left _ (List.mem_append_left _ member)))
    have arguments : AllPlain (callArguments config items) :=
      plain_callArguments conventions
        (fun text member => plain text (List.mem_append_left _ (List.mem_append_right _ member)))
        (fun text member => plain text (List.mem_append_right _ member))
    exact .plain (.append declared (.append (.append (.append called (.literal rfl))
      (.intercalate (.literal rfl) arguments)) (.literal rfl)))
  | send ident handed =>
    have named : Plain ident.text := plain _ (by simp [Statement.texts])
    have expressed : Plain (handed.expression config ident) := by
      cases handed
      · exact .append named (.literal rfl)
      · exact .append (.append (.append (conventions.runtime (.literal rfl)) (.literal rfl))
          (conventions.dataName named)) (.literal rfl)
    refine .plain ?_
    simp only [plain_append, and_assoc]
    exact ⟨.literal rfl, plain_constant named, .literal rfl, expressed, .literal rfl⟩

theorem nested_code {statements : List Statement}
    (plain : ∀ statement ∈ statements, AllPlain statement.texts) :
    Nested (code config statements) :=
  .flatMap fun statement member => nested_statement conventions (plain statement member)

end Code

end Body

/-! ## Ids -/

/-- A node with plain texts, and with no rules but those of definition files. -/
structure Node.IsPlain (node : Node) : Prop where
  texts : AllPlain node.texts
  rules : ∀ rule ∈ node.rules, rule.IsParity

/-- Ids whose spellings and nodes are plain. -/
structure DataIds.ArePlain (ids : DataIds) : Prop where
  idents : ∀ ident ∈ ids.ids, Plain ident.text
  parameters : ∀ node ∈ ids.parameters, node.IsPlain

namespace DataIds

theorem ArePlain.add {seen : DataIds} (plain : seen.ArePlain) {node : Node}
    (added : node.IsPlain) : (seen.add node).ArePlain where
  idents := by
    intro ident member
    rcases mem_ids_add.mp member with old | ⟨-, rfl⟩
    · exact plain.idents ident old
    · exact added.texts.ident
  parameters := by
    intro n member
    rcases mem_parameters_add member with old | ⟨rfl, -⟩
    · exact plain.parameters n old
    · exact added

theorem ArePlain.foldl_add {seen : DataIds} (plain : seen.ArePlain) {nodes : List Node}
    (added : ∀ node ∈ nodes, node.IsPlain) : (nodes.foldl DataIds.add seen).ArePlain := by
  induction nodes generalizing seen with
  | nil => exact plain
  | cons node rest ih =>
    rw [List.forall_mem_cons] at added
    exact ih (plain.add added.1) added.2

theorem isPlain_dataFlowParameter {method : Method} (plain : AllPlain method.texts) :
    (Node.enumeration (dataFlowParameter method.options)).IsPlain where
  texts := by
    have own : AllPlain (EnumParameter.make dataFlow "Data flow").parameter.texts := by decide
    refine List.forall_mem_append.mpr ⟨own, ?_⟩
    intro text member
    obtain ⟨description, described, inDescription⟩ := List.mem_flatMap.mp member
    obtain ⟨option, inMethod, rfl⟩ := List.mem_map.mp described
    have optionPlain := plain.option inMethod
    simp only [EnumDescription.make, EnumDescription.texts, Option.getD_some, List.mem_cons,
      List.not_mem_nil, or_false] at inDescription
    rcases inDescription with rfl | rfl | rfl
    · exact optionPlain.optionIdent
    · exact optionPlain _ (by simp [MethodOption.texts])
    · exact plain_constant optionPlain.optionIdent
  rules := by simp [Node.rules, Node.parameter?, dataFlowParameter, EnumParameter.make]

/-- The ids of a method are plain if its texts are. -/
theorem arePlain_of_collect {method : Method} {ids : DataIds} (collected : collect method = .ok ids)
    (plain : AllPlain method.texts)
    (parity : ∀ node ∈ method.arguments, ∀ rule ∈ node.rules, rule.IsParity) : ids.ArePlain := by
  have declaredPlain : (declared method).ArePlain := by
    refine ArePlain.foldl_add ⟨by simp, by simp⟩ fun node member => ⟨?_, parity node member⟩
    obtain ⟨option, inMethod, inOption⟩ := List.mem_flatMap.mp member
    exact (plain.option inMethod).node inOption
  rcases collect_cases collected with ⟨-, rfl⟩ | ⟨-, -, rfl⟩
  · exact declaredPlain
  · exact declaredPlain.add (isPlain_dataFlowParameter plain)

end DataIds

/-! ## Files -/

theorem Lines.not_mem_of_mem_splitFrom {begun chars : List Char} (whole : '\n' ∉ begun) :
    ∀ line ∈ splitFrom begun chars, '\n' ∉ line := by
  have returned {line : List Char} (whole : '\n' ∉ line) : '\n' ∉ dropReturn line := by
    unfold dropReturn
    split
    · exact fun member => whole (List.mem_cons_of_mem _ member)
    · exact whole
  induction begun, chars using splitFrom.induct with
  | case1 begun empty => simp [splitFrom, empty]
  | case2 begun some => simpa [splitFrom, some] using whole
  | case3 begun rest ih =>
    rw [splitFrom, List.forall_mem_cons]
    exact ⟨by simpa using returned whole, ih List.not_mem_nil⟩
  | case4 begun c rest other ih =>
    rw [splitFrom]
    · exact ih (by simpa [eq_comm] using And.intro other whole)
    · exact other

namespace Emission

theorem nested_comment {text : String} (whole : '\n' ∉ text.toList) : Nested [comment text] := by
  refine .line ⟨?_, ?_⟩
  · rw [String.toList_append, List.mem_append, not_or]
    exact ⟨by decide, whole⟩
  · rw [String.toList_append]
    rfl

theorem nested_header {method : Method} (named : Plain method.name) : Nested (header method) := by
  have documented : Nested ((Lines.split method.doc).map comment) := by
    refine .map fun text member => nested_comment ?_
    obtain ⟨line, inDoc, rfl⟩ := List.mem_map.mp member
    rw [String.toList_ofList]
    exact Lines.not_mem_of_mem_splitFrom List.not_mem_nil line inDoc
  unfold header
  split
  · exact documented
  · exact .append (nested_comment named.ordinary.1) documented

theorem nested_sections {parts : List (List Step)} (nested : ∀ part ∈ parts, Nested part) :
    Nested (sections parts) := by
  induction parts with
  | nil => exact .nil
  | cons first rest ih =>
    rw [List.forall_mem_cons] at nested
    cases rest with
    | nil => exact nested.1
    | cons second others => exact .append (.append nested.1 (.plain (.literal rfl))) (ih nested.2)

theorem nested_enumeration {name : String} (named : Plain name) {enumerators : List String}
    (plain : AllPlain enumerators) : Nested (enumeration name enumerators) :=
  .headed (.append (.literal rfl) named) (.level (Setup.nested_separated plain)) (.inr rfl)

theorem nested_idEnumerations {method : Method} (plain : AllPlain method.texts) {ids : DataIds}
    (idsPlain : ids.ArePlain) : Nested (idEnumerations ids method) := by
  have constants {list : List Ident} (texts : ∀ ident ∈ list, Plain ident.text) :
      AllPlain (list.map Ident.constant) := by
    intro text member
    obtain ⟨ident, inList, rfl⟩ := List.mem_map.mp member
    exact plain_constant (texts ident inList)
  refine .append (nested_enumeration (.literal rfl) (constants idsPlain.idents)) ?_
  split
  · refine .append (.plain (.literal rfl)) (nested_enumeration (.literal rfl) ?_)
    intro text member
    obtain ⟨option, inMethod, rfl⟩ := List.mem_map.mp member
    exact plain_constant (plain.option inMethod).optionIdent
  · exact .nil

section Files

variable {config : Config} {package : Package} {method : Method}
  (conventions : AllPlain config.texts)
include conventions

theorem nested_constants {package : Package} (named : Plain package.ident.text)
    {className : String} (classNamed : Plain className) :
    Nested (constants config package className) := by
  refine .cons (.plain ?package) (.cons (.plain ?version) (.plain ?type))
  all_goals simp only [plain_append, and_assoc]
  case package => exact ⟨.literal rfl, classNamed, .literal rfl, named, .literal rfl⟩
  case version =>
    exact ⟨.literal rfl, conventions.runtime (.literal rfl), .literal rfl, classNamed,
      .literal rfl, plain_toString _, .literal rfl, plain_toString _, .literal rfl,
      plain_toString _, .literal rfl⟩
  case type => exact ⟨.literal rfl, classNamed, .literal rfl, classNamed, .literal rfl⟩

theorem nested_converter {className : String} (named : Plain className)
    {enumeration : EnumParameter} (plain : AllPlain enumeration.texts) :
    Nested (converter config className enumeration) := by
  have argument : AllPlain enumeration.parameter.argument.texts :=
    AllPlain.argument fun text member => plain text (List.mem_append_left _ member)
  have cases : Nested (enumeration.descriptions.mapIdx convertCase).flatten := by
    rw [List.mapIdx_eq_zipIdx_map, ← List.flatMap_def]
    refine .flatMap fun ⟨description, index⟩ member => ?_
    have native : Plain description.nativeIdent :=
      plain.description (List.fst_mem_of_mem_zipIdx member) _ (by simp [EnumDescription.texts])
    exact .append (.plain (.append (.append (.literal rfl) (plain_toString _)) (.literal rfl)))
      (.level (.plain (.append (.append (.literal rfl) native) (.literal rfl))))
  have refuses : Nested (Step.nested
      [.line ("throw " ++ config.runtime "WrongParameterValue" ++ "(parameter(" ++
        enumeration.parameter.argument.ident.constant ++ "), *this);")]) := by
    refine .level (.plain ?_)
    simp only [plain_append, and_assoc]
    exact ⟨.literal rfl, conventions.runtime (.literal rfl), .literal rfl,
      plain_constant argument.spelling, .literal rfl⟩
  refine .append (.plain ?_) (.scope ?_)
  · simp only [plain_append, and_assoc, converterName]
    exact ⟨argument.nativeType, .literal rfl, named, .literal rfl, .literal rfl,
      plain_className argument.spelling, .literal rfl, conventions.runtime (.literal rfl),
      .literal rfl⟩
  · have block : Nested ([Step.line "switch(int(value))", Step.line "\x7b"] ++
        ((enumeration.descriptions.mapIdx convertCase).flatten ++ [Step.line "default:"] ++
          Step.nested [.line ("throw " ++ config.runtime "WrongParameterValue" ++ "(parameter(" ++
            enumeration.parameter.argument.ident.constant ++ "), *this);")]) ++
        [Step.line "\x7d"]) :=
      .headed (.literal rfl) (.append (.append cases (.plain (.literal rfl))) refuses) (.inl rfl)
    simpa only [List.append_assoc] using block

theorem nested_nodeConverter {className : String} (named : Plain className) {node : Node}
    (plain : AllPlain node.texts) : Nested (nodeConverter config className node) := by
  unfold nodeConverter
  split
  · split
    · exact .nil
    · exact .cons (.plain (.literal rfl)) (nested_converter conventions named plain)
  · exact .nil

/-- The parts of a file are nested, if the texts of the method are plain. -/
structure NestedParts (parts : Parts) : Prop where
  ids : parts.ids.ArePlain
  setCases : Nested parts.setCases
  initParameters : Nested parts.initParameters
  parameters : Nested parts.parameters
  inputs : Nested parts.inputs
  outputs : Nested parts.outputs
  executed : Nested parts.executed

theorem nestedParts_of_parts {parts : Parts} (made : Emission.parts config method = .ok parts)
    (plain : AllPlain method.texts)
    (parity : ∀ node ∈ method.arguments, ∀ rule ∈ node.rules, rule.IsParity) :
    NestedParts parts := by
  obtain ⟨ids, body, collected, bodies, rfl⟩ := exists_partsWith made
  have idsPlain : ids.ArePlain := DataIds.arePlain_of_collect collected plain parity
  have called : Plain method.nativeFunction := plain _ (by simp [Method.texts])
  have byOption {steps : MethodOption → List Step}
      (nested : ∀ option ∈ method.options, Nested (steps option)) :
      Nested (Setup.forEachOption ids method steps) :=
    Setup.nested_forEachOption plain ids nested
  exact {
    ids := idsPlain
    setCases := .flatMap fun node kept => Access.nested_setNodeCase conventions
      (idsPlain.parameters node kept).texts (idsPlain.parameters node kept).rules
    initParameters := .flatMap fun node kept => Setup.nested_describeNode conventions
      (idsPlain.parameters node kept).texts true
    parameters := byOption fun option inMethod => .flatMap fun node inOption =>
      Setup.nested_describeNode conventions ((plain.option inMethod).node inOption) false
    inputs := byOption fun option inMethod =>
      Setup.nested_connectionSteps conventions .inputs (plain.option inMethod)
    outputs := byOption fun option inMethod =>
      Setup.nested_connectionSteps conventions .outputs (plain.option inMethod)
    executed := byOption fun option inMethod => Body.nested_code conventions
      (Body.texts_ofOption (plain.option inMethod) called (bodies option inMethod)) }

theorem nested_content (packagePlain : Plain package.ident.text) {parts : Parts}
    (plain : AllPlain method.texts) (nested : NestedParts parts) :
    Nested (content config package method parts) := by
  have named : Plain method.ident.className := plain_className plain.methodIdent
  have texts : ∀ node ∈ parts.ids.parameters, AllPlain node.texts := fun node kept =>
    (nested.ids.parameters node kept).texts
  have list {function element name : String} (called : Plain function) (holds : Plain element)
      (listed : Plain name) {body : List Step} (inside : Nested body) :
      Nested (Setup.listFunction config method.ident.className function element name body) :=
    Setup.nested_listFunction conventions named called holds listed inside
  have connected (side : Setup.Side) {descriptions : List Step} (inside : Nested descriptions) :
      Nested (Setup.connectors config method.ident.className parts.ids side descriptions) := by
    cases side <;>
      exact list (.literal rfl) (.literal rfl) (.literal rfl)
        (.append inside (Setup.nested_afterSwitch parts.ids))
  have converters : Nested (parts.ids.parameters.flatMap
      (nodeConverter config method.ident.className)) :=
    .flatMap fun node kept => nested_nodeConverter conventions named (texts node kept)
  have executes : Nested (execute config method.ident.className parts.executed) := by
    refine .append (.plain ?_) (.scope nested.executed)
    simp only [plain_append, and_assoc]
    exact ⟨.literal rfl, named, .literal rfl, conventions.runtime (.literal rfl), .literal rfl⟩
  have main : ∀ part ∈ mainSections config package method parts, Nested part := by
    simp only [mainSections, List.forall_mem_cons]
    exact ⟨nested_constants conventions packagePlain named,
      nested_idEnumerations plain nested.ids,
      Setup.nested_constructor conventions named texts,
      Access.nested_getter conventions named texts,
      Access.nested_setter conventions named nested.setCases,
      list (.literal rfl) (.literal rfl) (.literal rfl) nested.initParameters,
      list (.literal rfl) (.literal rfl) (.literal rfl)
        (.append nested.parameters (Setup.nested_afterSwitch parts.ids)),
      connected .inputs nested.inputs,
      connected .outputs nested.outputs,
      Setup.nested_initialization conventions named,
      by simp⟩
  rw [content_eq]
  exact .append
    (.append (.append (nested_sections main) converters) (.plain (.literal rfl))) executes

/-- The file of a method is nested, if the texts of the method and those of the package and
    the conventions are plain. -/
theorem nested_fileSteps (packagePlain : Plain package.ident.text) {parts : Parts}
    (made : Emission.parts config method = .ok parts) (plain : AllPlain method.texts)
    (parity : ∀ node ∈ method.arguments, ∀ rule ∈ node.rules, rule.IsParity) :
    Nested (fileSteps config package method parts) := by
  have named : Plain method.name := plain _ (by simp [Method.texts])
  have parts_nested := nestedParts_of_parts conventions made plain parity
  have includes : Nested [includeStep package method] := by
    refine .plain ?_
    simp only [plain_append, and_assoc]
    exact ⟨.literal rfl, packagePlain, .literal rfl, plain_className plain.methodIdent,
      .literal rfl⟩
  exact .append (.append (nested_header named) (.cons includes (.cons (.plain (.literal rfl))
      (.plain (.append (.literal rfl) packagePlain)))))
    (.scope (nested_content conventions packagePlain plain parts_nested))

end Files

/-! ## Documents -/

/-- The document of a method: its text is well nested, and it is back at the level at which it
    began. -/
structure WellNested (document : Document) : Prop where
  balanced : Balanced (bracesOf document.text)
  above : ∀ first, first <+: bracesOf document.text → 0 ≤ depth first
  closed : depth (bracesOf document.text) = 0
  level : document.level = 0

theorem wellNested_of_nested {steps : List Step} (nested : Nested steps) (indentWidth : UInt64) :
    WellNested (Document.addAll { indentWidth } steps) := by
  have balanced : Balanced (bracesOf (Document.addAll { indentWidth } steps).text) :=
    nested.balanced_render
  constructor
  · exact balanced
  · intro first isPrefix
    have above := balanced.staysAbove first isPrefix
    rwa [Int.zero_add] at above
  · exact balanced.depth_eq
  · rw [Document.addAll_eq]
    exact nested.levelAfterAll_eq 0

/-- If the texts of a package and of the conventions are plain, and its rules are those of
    definition files, then each of its files is the text of a well nested document. It is the
    document with which a run ends, unless the run stops. -/
theorem renderPackage_wellNested {config : Config} {package : Package} {files : List File}
    (rendered : renderPackage config package = .ok files) (conventions : AllPlain config.texts)
    (plain : AllPlain package.texts)
    (parity : ∀ method ∈ package.methods, ∀ node ∈ method.arguments, ∀ rule ∈ node.rules,
      rule.IsParity) :
    List.Forall₂ (fun method file => ∃ parts, Emission.parts config method = .ok parts ∧
      file.contents = (Document.addAll { indentWidth := config.indentWidth }
        (fileSteps config package method parts)).text ∧
      WellNested (Document.addAll { indentWidth := config.indentWidth }
        (fileSteps config package method parts)) ∧
      ∀ ended, Document.run { indentWidth := config.indentWidth }
          (fileSteps config package method parts) = some ended →
        file.contents = ended.text ∧ WellNested ended) package.methods files := by
  have all : List.Forall₂ (fun method file => method ∈ package.methods ∧
      Renders config (package, method) file) package.methods files := by
    refine (List.forall₂_and_left _ _).mpr ⟨fun _ member => member, ?_⟩
    exact List.forall₂_map_left_iff.mp (renderMethods_files rendered)
  refine all.imp fun method file ⟨member, _, contents⟩ => ?_
  obtain ⟨parts, made, same⟩ := renderMethod_ok_iff.mp contents
  have wellNested := wellNested_of_nested (nested_fileSteps conventions plain.packageIdent made
    (plain.method member) (parity method member)) config.indentWidth
  refine ⟨parts, made, same, wellNested, fun ended ran => ?_⟩
  obtain ⟨-, rfl⟩ := Document.run_eq_some_iff.mp ran
  exact ⟨same, wellNested⟩

/-- A package with a choice of options, an enum parameter and a rule. -/
def nestedPackage : Package where
  ident := ⟨"p"⟩
  version := ⟨1, 0, 0⟩
  methods := [{
    ident := ⟨"m"⟩
    options := [
      { ident := ⟨"a"⟩
        items := [
          .node (.numeric { parameter := { argument := { ident := ⟨"k"⟩ }, rules := [.odd] } })] },
      { ident := ⟨"b"⟩
        items := [.node (.enumeration { parameter := { argument := { ident := ⟨"e"⟩ } } })] }] }]

theorem nestedPackage_files :
    ∃ files, renderPackage .standard nestedPackage = .ok files ∧
      AllPlain Config.standard.texts ∧ AllPlain nestedPackage.texts ∧
      (∀ method ∈ nestedPackage.methods, ∀ node ∈ method.arguments, ∀ rule ∈ node.rules,
        rule.IsParity) ∧
      List.Forall₂ (fun method file => ∃ parts, Emission.parts .standard method = .ok parts ∧
        file.contents = (Document.addAll { indentWidth := Config.standard.indentWidth }
          (fileSteps .standard nestedPackage method parts)).text ∧
        WellNested (Document.addAll { indentWidth := Config.standard.indentWidth }
          (fileSteps .standard nestedPackage method parts)) ∧
        ∀ ended, Document.run { indentWidth := Config.standard.indentWidth }
            (fileSteps .standard nestedPackage method parts) = some ended →
          file.contents = ended.text ∧ WellNested ended) nestedPackage.methods files := by
  have conventions : AllPlain Config.standard.texts := by decide
  have plain : AllPlain nestedPackage.texts := by decide
  have parity : ∀ method ∈ nestedPackage.methods, ∀ node ∈ method.arguments, ∀ rule ∈ node.rules,
      rule.IsParity := by decide
  obtain ⟨files, rendered⟩ : ∃ files, renderPackage .standard nestedPackage = .ok files := ⟨_, rfl⟩
  exact ⟨files, rendered, conventions, plain, parity,
    renderPackage_wellNested rendered conventions plain parity⟩

end Emission
end OperatorGen
