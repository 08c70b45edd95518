import OperatorGen.Proofs.Emission.Parameters
import OperatorGen.Proofs.Emission.Words

/-!
# Names of the runtime

The conventions give the namespace of the runtime, and an emitter that names something of it
asks them for it. Only the checks of rules do not: they throw an exception of the namespace
`runtime`, whatever the conventions say. So where neither the conventions nor a definition
with rules of definition files speak of `runtime`, a file has `runtime::` in it exactly if it
has the check of a rule (`ChecksRule`), or if the name of a native variable happens to spell
it, which is put together from a spelling and a suffix (`renderPackage_qualification`).
-/
namespace OperatorGen

/-- An argument that is the first with its spelling has a rule; its check is emitted. -/
def ChecksRule (method : Method) : Prop :=
  ∃ node ∈ method.arguments,
    firstNamed? method.arguments node.ident = some node ∧ node.rules ≠ []

instance : DecidablePred ChecksRule := fun _ => inferInstanceAs (Decidable (∃ _ ∈ _, _))

/-! ## The ids of a method -/

theorem Node.isParameter_of_rules {node : Node} (some : node.rules ≠ []) :
    node.isParameter = true := by
  rw [isParameter]
  cases given : node.parameter? with
  | none => simp [Node.rules, given] at some
  | some parameter => rfl

namespace DataIds

variable {method : Method} {ids : DataIds}

theorem exists_rule_iff (collected : collect method = .ok ids) :
    (∃ node ∈ ids.parameters, node.rules ≠ []) ↔ ChecksRule method := by
  constructor
  · rintro ⟨node, kept, some⟩
    rcases mem_parameters_cases collected kept with ⟨inMethod, first⟩ | rfl
    · exact ⟨node, inMethod, first, some⟩
    · exact absurd rfl some
  · rintro ⟨node, -, first, some⟩
    exact ⟨node, mem_parameters_of_first collected first (Node.isParameter_of_rules some), some⟩

/-- The texts of the parameters are those of the method, and what the data flow has of its
    own. -/
theorem lacks_parameters (collected : collect method = .ok ids)
    (lacks : AllLack "runtime" method.texts) :
    ∀ node ∈ ids.parameters, AllLack "runtime" node.texts := by
  intro node kept
  rcases mem_parameters_cases collected kept with ⟨inMethod, -⟩ | rfl
  · obtain ⟨option, member, inOption⟩ := List.mem_flatMap.mp inMethod
    exact (lacks.option member).node inOption
  · have own : AllLack "runtime" (EnumParameter.make dataFlow "Data flow").parameter.texts := by
      decide
    refine List.forall_mem_append.mpr ⟨own, ?_⟩
    intro text member
    obtain ⟨description, described, inDescription⟩ := List.mem_flatMap.mp member
    obtain ⟨option, inOptions, rfl⟩ := List.mem_map.mp described
    simp only [EnumDescription.make, EnumDescription.texts, Option.getD_some, List.mem_cons,
      List.not_mem_nil, or_false] at inDescription
    have optionLacks := lacks.option inOptions
    rcases inDescription with rfl | rfl | rfl
    · exact optionLacks _ (by simp [MethodOption.texts])
    · exact optionLacks _ (by simp [MethodOption.texts])
    · exact lacks_constant option.ident

end DataIds

/-! ## What brings the word in -/

namespace Body

variable {config : Config} {word : String}

/-- What occurs in an argument of the call occurs in the code of the call. -/
theorem occurs_call {result : Option Argument} {function text : String} {items : List Item}
    (inArguments : text ∈ callArguments config items) (occurs : Occurs word text) :
    Occurs word (resultDeclaration config result ++
      callExpression function (callArguments config items)) := by
  have listed : Occurs word (", ".intercalate (callArguments config items)) :=
    occurs.intercalate inArguments
  have expression : Occurs word (callExpression function (callArguments config items)) :=
    (listed.behind (function ++ "(")).before ");"
  exact expression.behind (resultDeclaration config result)

theorem occurs_compound {compound : Compound} {node : Node} (member : node ∈ compound.arguments)
    (occurs : Occurs word (config.dataName node.ident)) :
    Occurs word (compound.expression config) := by
  have listed : Occurs word
      (", ".intercalate (compound.arguments.map fun node => config.dataName node.ident)) :=
    occurs.intercalate (List.mem_map_of_mem member)
  exact (listed.behind _).before ")"

theorem occurs_wrapped {ident : Ident} (occurs : Occurs word (config.dataName ident)) :
    Occurs word ("provider.sendOutputData(" ++ ident.constant ++ ", " ++
      Handed.expression config ident .wrapped ++ ");") := by
  have container : Occurs word (Handed.expression config ident .wrapped) :=
    (occurs.behind (config.runtime "DataContainer" ++ "(cvsupport::wrap(")).before "))"
  exact (container.behind ("provider.sendOutputData(" ++ ident.constant ++ ", ")).before ");"

/-- The native variable of an argument is named in the code of its option. -/
theorem exists_native {function : String} {option : MethodOption} {statements : List Statement}
    (made : ofOption function option = .ok statements) {node : Node}
    (member : node ∈ option.arguments) (occurs : Occurs word (config.dataName node.ident)) :
    ∃ text, .line text ∈ code config statements ∧ Occurs word text := by
  have inCode {text : String} {statement : Statement} (stated : statement ∈ statements)
      (single : statement.steps config = [.line text]) : .line text ∈ code config statements := by
    refine List.mem_flatMap.mpr ⟨statement, stated, ?_⟩
    rw [single]
    exact List.mem_singleton_self _
  have called {text : String} (inArguments : text ∈ callArguments config option.items)
      (inText : Occurs word text) :
      ∃ text, .line text ∈ code config statements ∧ Occurs word text := by
    have call : Statement.call (option.arguments.findSome? Node.output?) function option.items ∈
        statements := by
      rw [ofOption_eq made]
      simp
    exact ⟨_, inCode call rfl, occurs_call inArguments inText⟩
  obtain ⟨item, inItems, inItem⟩ := List.mem_flatMap.mp member
  cases item with
  | node n =>
    obtain rfl := List.mem_singleton.mp inItem
    cases node with
    | output argument =>
      -- An output is no argument of the call, but it is wrapped when it is handed back.
      have sent : Statement.send argument.ident .wrapped ∈ statements := by
        rw [ofOption_eq made]
        exact List.mem_append_right _
          (List.mem_flatMap.mpr ⟨_, member, List.mem_singleton_self _⟩)
      exact ⟨_, inCode sent rfl, occurs_wrapped occurs⟩
    | _ => exact called (List.mem_filterMap.mpr ⟨_, inItems, rfl⟩) occurs
  | compound c =>
    exact called (List.mem_filterMap.mpr ⟨_, inItems, rfl⟩) (occurs_compound inItem occurs)

end Body

namespace Emission

variable {config : Config} {package : Package} {method : Method} {ids : DataIds}
  {body : MethodOption → List Body.Statement}

/-- The exceptions for wrong values in the steps of a file: a converter throws that of the
    runtime, and the check of a rule that of the namespace `runtime`. -/
structure Throws (config : Config) (ids : DataIds) (steps : List Step) : Prop where
  converters : ∀ node ∈ ids.parameters, DataIds.isConverted node = true →
    .line ("throw " ++ config.runtime "WrongParameterValue" ++ "(parameter(" ++
      node.ident.constant ++ "), *this);") ∈ steps
  rules : ∀ node ∈ ids.parameters, ∀ rule ∈ node.rules, ∃ message,
    .line ("throw runtime::WrongParameterValue(*" ++ node.ident.member ++
      "Parameter, *this, \"" ++ message ++ "\");") ∈ steps

theorem line_mem_check {parameter : Parameter} {rule : Rule} (member : rule ∈ parameter.rules)
    (parity : rule.IsParity) (config : Config) (check : Option String) :
    ∃ message, .line ("throw runtime::WrongParameterValue(*" ++ parameter.argument.ident.member ++
      "Parameter, *this, \"" ++ message ++ "\");") ∈ Access.setCase config parameter check := by
  have checks {text : String} (inRule : .line text ∈ rule.check parameter) :
      .line text ∈ Access.setCase config parameter check := by
    have inChecks : .line text ∈ parameter.checks := List.mem_flatMap.mpr ⟨rule, member, inRule⟩
    simp [Access.setCase, Step.nested, Step.scope, inChecks]
  rcases parity with rfl | rfl
  · exact ⟨"Only odd values are allowed", checks (.tail _ (.tail _ (.head _)))⟩
  · exact ⟨"Only even values are allowed", checks (.tail _ (.tail _ (.head _)))⟩

/-- What a file throws for wrong values, whatever its options execute. -/
theorem throws_fileSteps (parity : ∀ node ∈ ids.parameters, ∀ rule ∈ node.rules, rule.IsParity) :
    Throws config ids (fileSteps config package method (partsWith config method ids body)) where
  converters := by
    intro node kept converted
    have inConverter : .line ("throw " ++ config.runtime "WrongParameterValue" ++ "(parameter(" ++
        node.ident.constant ++ "), *this);") ∈
          nodeConverter config method.ident.className node := by
      rw [DataIds.isConverted, Bool.and_eq_true, decide_eq_true_iff] at converted
      cases node with
      | enumeration e =>
        have other : e.parameter.argument.ident ≠ dataFlow := converted.2
        simp [nodeConverter, other, converter, Step.scope, Step.nested, Node.ident]
      | _ => cases converted.1
    refine (@converters_infix_fileSteps config package method
      (partsWith config method ids body)).subset ?_
    refine List.mem_append_left _ (List.mem_append_left _ (List.mem_append_right _ ?_))
    exact List.mem_flatMap.mpr ⟨node, kept, inConverter⟩
  rules := by
    intro node kept rule member
    have setter : Access.setter config method.ident.className
          (ids.parameters.flatMap (Access.setNodeCase config)) <:+:
        fileSteps config package method (partsWith config method ids body) :=
      setter_infix_fileSteps (partsWith config method ids body)
    have cases {step : Step} (inCase : step ∈ Access.setNodeCase config node) :
        step ∈ fileSteps config package method (partsWith config method ids body) := by
      refine setter.subset ?_
      have inCases := List.mem_flatMap.mpr ⟨node, kept, inCase⟩
      simp [Access.setter, Access.idSwitch, Step.scope, Step.nested, inCases]
    cases given : node.parameter? with
    | none => simp [Node.rules, given] at member
    | some parameter =>
      have same : node.ident = parameter.argument.ident := by
        cases node <;> cases given <;> rfl
      have inRules : rule ∈ parameter.rules := by simpa [Node.rules, given] using member
      obtain ⟨message, inCase⟩ := line_mem_check inRules (parity node kept rule member) config
        (Access.kindCheck? node)
      refine ⟨message, cases ?_⟩
      rw [Access.setNodeCase, given, same]
      exact inCase

section Omission

variable (conventions : AllLack "runtime" config.texts) (lacks : AllLack "runtime" method.texts)
  (collected : DataIds.collect method = .ok ids)
include conventions lacks collected

theorem omits_mainSections (packageLacks : Lacks "runtime" package.ident.text)
    (unchecked : ∀ node ∈ ids.parameters, node.rules = []) :
    ∀ part ∈ mainSections config package method (partsWith config method ids body),
      Omits "runtime" part := by
  have named : Lacks "runtime" method.ident.className :=
    lacks_className (lacks _ (by simp [Method.texts]))
  have parameters := DataIds.lacks_parameters collected lacks
  have list {function element name : String} (called : Lacks "runtime" function)
      (holds : Lacks "runtime" element) (listed : Lacks "runtime" name) {inner : List Step}
      (inside : Omits "runtime" inner) :
      Omits "runtime"
        (Setup.listFunction config method.ident.className function element name inner) :=
    Setup.omits_listFunction conventions named called holds listed inside
  have byOption {steps : MethodOption → List Step}
      (omits : ∀ option ∈ method.options, Omits "runtime" (steps option)) :
      Omits "runtime" (Setup.forEachOption ids method steps ++ Setup.afterSwitch ids) :=
    .append (Setup.omits_forEachOption isWord_runtime (by decide) omits)
      (Setup.omits_afterSwitch ids)
  have initial : Omits "runtime" (Setup.initDescriptions config ids) := .flatMap fun node kept =>
    Setup.omits_describeNode conventions (parameters node kept) true
  have later := byOption fun option inMethod => (.flatMap fun node inOption =>
    Setup.omits_describeNode conventions ((lacks.option inMethod).node inOption) false :
      Omits "runtime" (Setup.laterDescriptions config option))
  have connected (side : Setup.Side) := byOption fun option inMethod =>
    Setup.omits_connectionSteps conventions side (lacks.option inMethod)
  have cases : Omits "runtime" (ids.parameters.flatMap (Access.setNodeCase config)) :=
    .flatMap fun node kept =>
      Access.omits_setNodeCase conventions (parameters node kept) (unchecked node kept)
  simp only [mainSections, List.forall_mem_cons]
  exact ⟨omits_constants conventions packageLacks named,
    omits_idEnumerations ids method,
    Setup.omits_constructor conventions named parameters,
    Access.omits_getter conventions named parameters,
    Access.omits_setter conventions named cases,
    list (.literal rfl) (.literal rfl) (.literal rfl) initial,
    list (.literal rfl) (.literal rfl) (.literal rfl) later,
    list (.literal rfl) (.literal rfl) (.literal rfl) (connected .inputs),
    list (.literal rfl) (.literal rfl) (.literal rfl) (connected .outputs),
    Setup.omits_initialization conventions named,
    by simp⟩

/-- Without rules, and without native variables that have the word, a file names nothing of the
    namespace `runtime`. -/
theorem omits_fileSteps (packageLacks : Lacks "runtime" package.ident.text)
    (documented : Lacks "runtime" method.doc)
    (bodies : ∀ option ∈ method.options,
      Body.ofOption method.nativeFunction option = .ok (body option))
    (unchecked : ∀ node ∈ ids.parameters, node.rules = [])
    (natives : ∀ node ∈ method.arguments, Lacks "runtime::" (config.dataName node.ident)) :
    Omits "runtime::" (fileSteps config package method (partsWith config method ids body)) := by
  have longer : Occurs "runtime" "runtime::" := by decide
  have isWord : IsWord "runtime::" := by decide
  have named : Lacks "runtime" method.ident.className :=
    lacks_className (lacks _ (by simp [Method.texts]))
  have called : Lacks "runtime" method.nativeFunction := lacks _ (by simp [Method.texts])
  have front : Omits "runtime" (header method ++
      [includeStep package method, Step.blank, .line ("namespace " ++ package.ident.text)]) :=
    .append (omits_header (lacks _ (by simp [Method.texts])) documented)
      (.cons (.before (.around (.behind rfl packageLacks) rfl named) rfl)
        (.cons (.literal rfl) (.line (.behind rfl packageLacks))))
  have main : Omits "runtime"
      (sections (mainSections config package method (partsWith config method ids body))) :=
    omits_sections (omits_mainSections conventions lacks collected packageLacks unchecked)
      (.literal rfl)
  have converters : Omits "runtime"
      (ids.parameters.flatMap (nodeConverter config method.ident.className)) :=
    .flatMap fun node kept => omits_nodeConverter conventions named
      (DataIds.lacks_parameters collected lacks node kept)
  -- All in front of the bodies lacks even `runtime`; only a body names native variables.
  have executed : Omits "runtime::" (Setup.forEachOption ids method
      fun option => Body.code config (body option)) := by
    refine Setup.omits_forEachOption isWord longer fun option inMethod => ?_
    refine .flatMap fun statement stated => ?_
    refine Body.omits_statement conventions (Body.texts_ofOption (lacks.option inMethod) called
      (bodies option inMethod) statement stated) fun ident inStatement => ?_
    obtain ⟨node, inOption, rfl⟩ := Body.natives_ofOption (bodies option inMethod) statement stated
      ident inStatement
    exact natives node (List.mem_flatMap_of_mem inMethod inOption)
  have signature : Lacks "runtime" ("void " ++ method.ident.className ++ "::execute(" ++
      config.runtime "DataProvider" ++ " & provider)") :=
    .before (.around (.behind rfl named) rfl (conventions.runtime (.literal rfl))) rfl
  refine .append (front.of_part longer) (.scope isWord ?_)
  rw [content_eq]
  exact .append (.append (.append (main.of_part longer) (converters.of_part longer))
    (.line (.literal rfl))) (.append (.line (signature.of_part longer)) (.scope isWord executed))

end Omission

/-- The word occurs in the file of a method exactly if a rule is checked in it, or if a native
    variable has the word in its name. -/
theorem occurs_fileSteps_iff (conventions : AllLack "runtime" config.texts)
    (packageLacks : Lacks "runtime" package.ident.text) (lacks : AllLack "runtime" method.texts)
    (documented : Lacks "runtime" method.doc)
    (parity : ∀ node ∈ ids.parameters, ∀ rule ∈ node.rules, rule.IsParity)
    (collected : DataIds.collect method = .ok ids)
    (bodies : ∀ option ∈ method.options,
      Body.ofOption method.nativeFunction option = .ok (body option)) :
    (∃ text, .line text ∈ fileSteps config package method (partsWith config method ids body) ∧
        Occurs "runtime::" text) ↔
      ChecksRule method ∨
        ∃ node ∈ method.arguments, Occurs "runtime::" (config.dataName node.ident) := by
  rw [← DataIds.exists_rule_iff collected]
  constructor
  · rintro ⟨text, member, occurs⟩
    by_contra neither
    rw [not_or] at neither
    have unchecked : ∀ node ∈ ids.parameters, node.rules = [] := fun node kept =>
      by_contra fun some => neither.1 ⟨node, kept, some⟩
    have natives : ∀ node ∈ method.arguments, Lacks "runtime::" (config.dataName node.ident) :=
      fun node inMethod named => neither.2 ⟨node, inMethod, named⟩
    exact omits_fileSteps conventions lacks collected packageLacks documented bodies unchecked
      natives text member occurs
  · rintro (⟨node, kept, some⟩ | ⟨node, inMethod, named⟩)
    · obtain ⟨rule, member⟩ := List.exists_mem_of_ne_nil _ some
      obtain ⟨message, inFile⟩ := (throws_fileSteps parity).rules node kept rule member
      have literal : Occurs "runtime::" "throw runtime::WrongParameterValue(*" := by decide
      exact ⟨_, inFile, (((literal.before _).before _).before _).before _⟩
    · obtain ⟨option, inOptions, inOption⟩ := List.mem_flatMap.mp inMethod
      obtain ⟨text, inCode, occurs⟩ :=
        Body.exists_native (bodies option inOptions) inOption named
      refine ⟨text, ?_, occurs⟩
      refine (@execute_infix_fileSteps config package method
        (partsWith config method ids body)).subset ?_
      refine List.mem_append_right _ ((infix_scope _).subset ?_)
      exact Setup.mem_forEachOption (DataIds.hasDataFlow_or_single collected) inOptions inCode

/-- The conventions and the texts of a package lack the word `runtime`, and its rules are those of
    definition files. -/
structure Unqualified (config : Config) (package : Package) : Prop where
  conventions : AllLack "runtime" config.texts
  texts : AllLack "runtime" package.texts
  docs : ∀ method ∈ package.methods, Lacks "runtime" method.doc
  parity : ∀ method ∈ package.methods, ∀ node ∈ method.arguments, ∀ rule ∈ node.rules,
    rule.IsParity

theorem renderMethod_qualification {text : String} (unqualified : Unqualified config package)
    (member : method ∈ package.methods) (rendered : renderMethod config package method = .ok text) :
    ∃ ids steps, DataIds.collect method = .ok ids ∧
      text = Document.render config.indentWidth steps ∧ Throws config ids steps ∧
      (Occurs "runtime::" text ↔ ChecksRule method ∨
        ∃ node ∈ method.arguments, Occurs "runtime::" (config.dataName node.ident)) := by
  obtain ⟨ids, body, collected, bodies, same⟩ := exists_bodies rendered
  have packageLacks : Lacks "runtime" package.ident.text := unqualified.texts _ List.mem_cons_self
  have lacks : AllLack "runtime" method.texts := fun text inMethod =>
    unqualified.texts text (Package.method_texts_subset member inMethod)
  have parity : ∀ node ∈ ids.parameters, ∀ rule ∈ node.rules, rule.IsParity := by
    intro node kept rule inRules
    rcases DataIds.mem_parameters_cases collected kept with ⟨inMethod, -⟩ | rfl
    · exact unqualified.parity method member node inMethod rule inRules
    · cases inRules
  refine ⟨ids, _, collected, same, throws_fileSteps parity, ?_⟩
  rw [same, occurs_render_iff (by decide)]
  exact occurs_fileSteps_iff unqualified.conventions packageLacks lacks
    (unqualified.docs method member) parity collected bodies

/-- If neither the conventions nor a package speak of `runtime`, then a file of the package has
    `runtime::` in it exactly if a rule is checked in it, or if a native variable happens to have
    the word in its name: converters throw the exception of the runtime, but checks of rules
    that of the namespace `runtime`. -/
theorem renderPackage_qualification {config : Config} {package : Package} {files : List File}
    (unqualified : Unqualified config package)
    (rendered : renderPackage config package = .ok files) :
    List.Forall₂ (fun method file => ∃ ids steps, DataIds.collect method = .ok ids ∧
      file.contents = Document.render config.indentWidth steps ∧ Throws config ids steps ∧
      (Occurs "runtime::" file.contents ↔ ChecksRule method ∨
        ∃ node ∈ method.arguments, Occurs "runtime::" (config.dataName node.ident)))
      package.methods files := by
  refine (renderPackage_files rendered).imp fun method file ⟨member, _, contents⟩ => ?_
  exact renderMethod_qualification unqualified member contents

/-- The usual conventions, for a runtime in the namespace `rt`. -/
def shortConfig : Config :=
  { Config.standard with runtimeNamespace := "rt" }

/-- A method with an odd size. -/
def oddMethod : Method where
  ident := ⟨"blur"⟩
  options := [
    { ident := ⟨"manual"⟩
      items := [.node (.parameter
        { argument := { ident := ⟨"ksize"⟩, nativeType := "int", wrapperType := "Int32" }
          rules := [.odd] })] }]

/-- A package of that method and one without arguments. -/
def oddPackage : Package where
  ident := ⟨"vision"⟩
  version := ⟨1, 0, 0⟩
  methods := [oddMethod, { ident := ⟨"flip"⟩, options := [{ ident := ⟨"manual"⟩ }] }]

theorem unqualified_oddPackage : Unqualified shortConfig oddPackage where
  conventions := by decide
  texts := by decide
  docs := by decide
  parity := by decide

/-- Of these methods, only the file of the first has `runtime::` in it. -/
theorem oddPackage_qualification :
    Unqualified shortConfig oddPackage ∧
      ∃ first second, renderPackage shortConfig oddPackage = .ok [first, second] ∧
        Occurs "runtime::" first.contents ∧ Lacks "runtime::" second.contents := by
  obtain ⟨first, second, rendered⟩ : ∃ first second,
      renderPackage shortConfig oddPackage = .ok [first, second] := ⟨_, _, rfl⟩
  have qualification := renderPackage_qualification unqualified_oddPackage rendered
  simp only [oddPackage, List.forall₂_cons, List.forall₂_nil_left_iff, and_true] at qualification
  obtain ⟨⟨-, -, -, -, -, checked⟩, ⟨-, -, -, -, -, unchecked⟩⟩ := qualification
  refine ⟨unqualified_oddPackage, first, second, rendered, checked.mpr (by decide), ?_⟩
  intro occurs
  exact absurd (unchecked.mp occurs) (by decide)

/-- The namespace of the runtime is not respected: a file may have `runtime::` in it where neither
    the conventions nor the package speak of it. -/
theorem runtime_namespace_ignored :
    ¬ ∀ (config : Config) (package : Package) (files : List File),
      Unqualified config package → renderPackage config package = .ok files →
        ∀ file ∈ files, Lacks "runtime::" file.contents := by
  intro respected
  obtain ⟨first, second, rendered⟩ : ∃ first second,
      renderPackage shortConfig oddPackage = .ok [first, second] := ⟨_, _, rfl⟩
  have lacks : Lacks "runtime::" first.contents :=
    respected _ _ _ unqualified_oddPackage rendered first List.mem_cons_self
  cases renderPackage_files rendered with
  | cons head _ =>
    obtain ⟨member, -, contents⟩ := head
    obtain ⟨-, -, -, -, -, occurs⟩ :=
      renderMethod_qualification unqualified_oddPackage member contents
    refine lacks (occurs.mpr (.inl ?_))
    decide

end Emission
end OperatorGen
