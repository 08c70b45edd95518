import Mathlib.Data.List.Nodup
import OperatorGen.Proofs.Emission.Descriptions

/-!
# Names of converters and members

Two kinds of names in a file are derived from the spellings of parameters and never compared by
validation. The converter of an enum parameter is named after its class form. Spellings of one
class form have one enumerator, which validation does compare, so the converters of a method in
a valid package are told apart (`converters_told_apart`). The members of a parameter are named
after its spelling: one holds its value, and one, with `Parameter` behind the name, the
description of it. Nothing keeps a parameter from being spelled like another one with
`Parameter` behind it (`SpellsDescription`), and then the value of the one and the description of
the other have the same member; otherwise all members are distinct (`rendered_memberNames`).
-/
namespace OperatorGen

/-! ## Converters -/

namespace Emission

variable {config : Config} {package : Package} {method : Method} {ids : DataIds}

/-- The converters that are written have names of their own if the method keeps its enumerators
    apart. -/
theorem nodup_map_converterName (distinguishes : Validation.Distinguishes method)
    (collected : DataIds.collect method = .ok ids) :
    (ids.converted.map converterName).Nodup := by
  have distinct : ids.converted.Nodup :=
    (DataIds.orderly_of_collect collected).nodup_parameters.sublist (List.filter_sublist.map _)
  refine List.Nodup.map_on ?_ distinct
  intro a converted b converted' same
  obtain ⟨node, member, rfl⟩ := exists_of_mem_converted collected converted
  obtain ⟨other, otherMember, rfl⟩ := exists_of_mem_converted collected converted'
  exact ident_eq_of_converterName_eq distinguishes member otherMember same

/-- Spellings of one class form have one enumerator. So in a method of a valid package the
    converters of enum parameters with different spellings have different names, whichever
    options the parameters belong to, and no two converters that its file defines have one
    name. -/
theorem converters_told_apart (valid : Validation.problems package = [])
    (member : method ∈ package.methods) :
    (∀ a b : Ident, a.className = b.className → a.constant = b.constant) ∧
      (∀ option ∈ method.options, ∀ other ∈ method.options, ∀ e f : EnumParameter,
        .enumeration e ∈ option.arguments → .enumeration f ∈ other.arguments →
        e.parameter.argument.ident ≠ f.parameter.argument.ident →
        converterName e.parameter.argument.ident ≠ converterName f.parameter.argument.ident) ∧
      ∀ (config : Config) (text : String), renderMethod config package method = .ok text →
        ∃ ids executed steps, DataIds.collect method = .ok ids ∧
          text = Document.render config.indentWidth steps ∧
          Defines config method.ident.className ids.converted executed steps ∧
          (ids.converted.map converterName).Nodup := by
  have distinguishes : Validation.Distinguishes method :=
    ((Validation.problems_eq_nil_iff.mp valid).methods method member).enumerators
  refine ⟨fun a b => Ident.constant_eq_of_className_eq, ?_, ?_⟩
  · intro option inMethod other inMethod' e f inOption inOther differ same
    have first : .enumeration e ∈ method.arguments :=
      List.mem_flatMap.mpr ⟨option, inMethod, inOption⟩
    have second : .enumeration f ∈ method.arguments :=
      List.mem_flatMap.mpr ⟨other, inMethod', inOther⟩
    exact differ (ident_eq_of_converterName_eq distinguishes first second same)
  · intro config text rendered
    obtain ⟨ids, executed, collected, -, laidOut⟩ := exists_partsOf rendered
    exact ⟨ids, executed, _, collected, laidOut, defines_fileSteps,
      nodup_map_converterName distinguishes collected⟩

/-- An enum parameter with one value. -/
def enumParameter (ident : String) : EnumParameter :=
  { EnumParameter.make ⟨ident⟩ "" with descriptions := [.make ⟨"fast"⟩ "" none] }

/-- An option of enum parameters. -/
def enumOption (ident : String) (parameters : List String) : MethodOption where
  ident := ⟨ident⟩
  items := parameters.map fun parameter => .node (.enumeration (enumParameter parameter))

/-- A method of two options with enum parameters, whose spellings differ in the case of a letter
    behind the first. -/
def enumMethod : Method where
  ident := ⟨"blur"⟩
  options := [enumOption "manual" ["borderMode"],
    enumOption "allocate" ["bordermode", "borderMode"]]

/-- The package of that method. -/
def enumPackage : Package where
  ident := ⟨"vision"⟩
  version := ⟨1, 0, 0⟩
  methods := [enumMethod]

/-- Two converters are defined for the parameters of that method. -/
theorem enumMethod_converters :
    ∃ text, renderMethod .standard enumPackage enumMethod = .ok text ∧
      converterName ⟨"borderMode"⟩ ≠ converterName ⟨"bordermode"⟩ ∧
      ∃ executed steps, text = Document.render Config.standard.indentWidth steps ∧
        Defines .standard "Blur" [⟨"borderMode"⟩, ⟨"bordermode"⟩] executed steps := by
  have valid : Validation.problems enumPackage = [] := by decide +kernel
  obtain ⟨text, rendered⟩ : ∃ text, renderMethod .standard enumPackage enumMethod = .ok text :=
    ⟨_, rfl⟩
  have member : enumMethod ∈ enumPackage.methods := List.mem_cons_self
  obtain ⟨-, apart, defined⟩ := converters_told_apart valid member
  obtain ⟨ids, executed, steps, collected, laidOut, defines, -⟩ := defined .standard text rendered
  have converted : ids.converted = [⟨"borderMode"⟩, ⟨"bordermode"⟩] := by
    obtain rfl : _ = ids := Except.ok.inj collected
    decide
  have className : enumMethod.ident.className = "Blur" := by decide
  rw [converted, className] at defines
  have first : .enumeration (enumParameter "borderMode") ∈
      (enumOption "manual" ["borderMode"]).arguments := by decide
  have second : .enumeration (enumParameter "bordermode") ∈
      (enumOption "allocate" ["bordermode", "borderMode"]).arguments := by decide
  have told := apart _ (by decide) _ (by decide) _ _ first second (by decide)
  exact ⟨text, rendered, told, executed, steps, laidOut, defines⟩

end Emission

/-! ## Members -/

namespace Ident

/-- The member that holds the description of a parameter. -/
def descriptionMember (ident : Ident) : String :=
  ident.member ++ "Parameter"

theorem member_inj {a b : Ident} : a.member = b.member ↔ a = b := by
  rw [member, member, method, method, String.append_right_inj]
  cases a
  cases b
  exact mk.injEq _ _ ▸ Iff.rfl

theorem descriptionMember_inj {a b : Ident} :
    a.descriptionMember = b.descriptionMember ↔ a = b := by
  rw [descriptionMember, descriptionMember, String.append_left_inj, member_inj]

/-- The value of one parameter and the description of another have the same member exactly if the
    first is spelled like the second with `Parameter` behind it. -/
theorem member_eq_descriptionMember {a b : Ident} :
    b.member = a.descriptionMember ↔ b.text = a.text ++ "Parameter" := by
  rw [descriptionMember, member, member, method, method, String.append_assoc,
    String.append_right_inj]

/-- The members of parameters, those of their values and those of their descriptions. -/
def members (idents : List Ident) : List String :=
  idents.map member ++ idents.map descriptionMember

theorem nodup_members_iff {idents : List Ident} (distinct : idents.Nodup) :
    (members idents).Nodup ↔
      ∀ a ∈ idents, ∀ b ∈ idents, b.text ≠ a.text ++ "Parameter" := by
  have values : (idents.map member).Nodup := distinct.map fun _ _ => member_inj.mp
  have descriptions : (idents.map descriptionMember).Nodup :=
    distinct.map fun _ _ => descriptionMember_inj.mp
  rw [members, List.nodup_append, and_iff_right values, and_iff_right descriptions]
  simp only [List.forall_mem_map, ne_eq, member_eq_descriptionMember]
  exact ⟨fun apart a inA b inB => apart b inB a inA, fun apart b inB a inA => apart a inA b inB⟩

end Ident

/-- The spellings of the parameters of a method, the data flow included. -/
def Method.parameterIdents (method : Method) : List Ident :=
  method.idents.filter method.firstIsParameter ++ method.selector

/-- A parameter of a method is spelled like another one with `Parameter` behind it. -/
def SpellsDescription (method : Method) : Prop :=
  ∃ a ∈ method.parameterIdents, ∃ b ∈ method.parameterIdents, b.text = a.text ++ "Parameter"

instance : DecidablePred SpellsDescription := fun _ => inferInstanceAs (Decidable (∃ _ ∈ _, _))

/-- The members of the parameters that are kept. -/
def DataIds.memberNames (ids : DataIds) : List String :=
  Ident.members ids.parameterIdents

theorem DataIds.nodup_memberNames_iff {method : Method} {ids : DataIds}
    (collected : collect method = .ok ids) :
    ids.memberNames.Nodup ↔ ¬ SpellsDescription method := by
  have distinct : ids.parameterIdents.Nodup := (orderly_of_collect collected).nodup_parameters
  rw [memberNames, Ident.nodup_members_iff distinct, parameterIdents_of_collect collected,
    ← Method.parameterIdents, SpellsDescription]
  push Not
  rfl

namespace Setup

/-- The description of a parameter is made and put into a member. -/
def Makes (ident : Ident) (step : Step) : Prop :=
  ∃ make, step = .line (ident.descriptionMember ++ " = new " ++ make ++ ";")

theorem exists_makes_parameterLines (config : Config) {node : Node}
    (parameter : node.isParameter = true) :
    ∃ step ∈ parameterLines config node, Makes node.ident step := by
  have first (p : Parameter) (made : String) (details : List Step) :
      ∃ step ∈ descriptionLines config p made details, Makes p.argument.ident step :=
    ⟨_, List.mem_append_left _ (List.mem_append_left _ List.mem_cons_self), made, rfl⟩
  cases node with
  | parameter p => exact first p _ _
  | numeric n => exact first n.parameter _ _
  | enumeration e => exact first e.parameter _ _
  | _ => cases parameter

end Setup

namespace Emission

variable {config : Config} {package : Package} {method : Method} {ids : DataIds}
  {executed : List Step}

/-- The steps of a file use the members of parameters: the values are initialised, got and set,
    and the descriptions are made. -/
structure UsesMembers (config : Config) (className : String) (ids : DataIds) (steps : List Step) :
    Prop where
  values : Lists config className (ids.ids.map Ident.constant) ids.parameterIdents steps
  descriptions : ∀ ident ∈ ids.parameterIdents, ∃ step ∈ steps, Setup.Makes ident step

/-- The description of every parameter that is kept stands in the file. -/
theorem parameterLines_infix_fileSteps (collected : DataIds.collect method = .ok ids) {node : Node}
    (kept : node ∈ ids.parameters) :
    Setup.parameterLines config node <:+:
      fileSteps config package method (partsOf config method ids executed) := by
  have parameter := DataIds.isParameter_of_mem_collect collected kept
  by_cases early : node.isInit = true
  · have listed : Setup.parameterLines config node <:+: Setup.initDescriptions config ids :=
      Setup.parameterLines_infix kept parameter early
    exact listed.trans listsAll_fileSteps.entries_infix
  · -- The data flow is set before the initialization, so the parameter is that of an option.
    rcases DataIds.mem_parameters_cases collected kept with ⟨inMethod, -⟩ | rfl
    · obtain ⟨option, inOptions, inOption⟩ := List.mem_flatMap.mp inMethod
      have listed : Setup.parameterLines config node <:+: Setup.laterDescriptions config option :=
        Setup.parameterLines_infix inOption parameter (Bool.eq_false_iff.mpr early)
      exact listed.trans ((listsByOption_parameters collected).infix_of_mem inOptions)
    · exact absurd rfl early

theorem usesMembers_fileSteps (collected : DataIds.collect method = .ok ids) :
    UsesMembers config method.ident.className ids
      (fileSteps config package method (partsOf config method ids executed)) where
  values := lists_fileSteps collected
  descriptions ident member := by
    obtain ⟨node, kept, rfl⟩ := List.mem_map.mp member
    have parameter := DataIds.isParameter_of_mem_collect collected kept
    obtain ⟨step, described, makes⟩ := Setup.exists_makes_parameterLines config parameter
    exact ⟨step, (parameterLines_infix_fileSteps collected kept).subset described, makes⟩

/-- In the file of a method the values and the descriptions of its parameters, the data flow
    included, have members of their own exactly if no parameter is spelled like another one with
    `Parameter` behind it. -/
theorem rendered_memberNames {text : String}
    (rendered : renderMethod config package method = .ok text) :
    ∃ ids steps, DataIds.collect method = .ok ids ∧
      text = Document.render config.indentWidth steps ∧
      UsesMembers config method.ident.className ids steps ∧
      (ids.memberNames.Nodup ↔ ¬ SpellsDescription method) := by
  obtain ⟨ids, executed, collected, -, laidOut⟩ := exists_partsOf rendered
  exact ⟨ids, _, collected, laidOut, usesMembers_fileSteps collected,
    DataIds.nodup_memberNames_iff collected⟩

/-- A method of one option with two parameters. -/
def sizesMethod (first second : String) : Method where
  ident := ⟨"blur"⟩
  options := [
    { ident := ⟨"manual"⟩
      items := [first, second].map fun parameter => .node (.parameter
        { argument := { ident := ⟨parameter⟩, nativeType := "int", wrapperType := "Int32" } }) }]

/-- The package of such a method. -/
def sizesPackage (first second : String) : Package where
  ident := ⟨"vision"⟩
  version := ⟨1, 0, 0⟩
  methods := [sizesMethod first second]

/-- The members of the parameters `size` and `sigma` are distinct. -/
theorem sizes_memberNames :
    ∃ text, renderMethod .standard (sizesPackage "size" "sigma") (sizesMethod "size" "sigma") =
        .ok text ∧
      ∃ ids steps, DataIds.collect (sizesMethod "size" "sigma") = .ok ids ∧
        text = Document.render Config.standard.indentWidth steps ∧
        UsesMembers .standard "Blur" ids steps ∧ ids.memberNames.Nodup := by
  obtain ⟨text, rendered⟩ : ∃ text, renderMethod .standard (sizesPackage "size" "sigma")
      (sizesMethod "size" "sigma") = .ok text := ⟨_, rfl⟩
  obtain ⟨ids, steps, collected, laidOut, used, distinct⟩ := rendered_memberNames rendered
  exact ⟨text, rendered, ids, steps, collected, laidOut, used, distinct.mpr (by decide)⟩

/-- Members need not be distinct: a valid package may have a method with the parameters `size` and
    `sizeParameter`, and the member of the value of the second holds the description of the
    first. -/
theorem shared_member_accepted :
    ¬ ∀ (config : Config) (package : Package) (method : Method) (text : String),
      Validation.problems package = [] → method ∈ package.methods →
        renderMethod config package method = .ok text →
          ∃ ids steps, DataIds.collect method = .ok ids ∧
            text = Document.render config.indentWidth steps ∧
            UsesMembers config method.ident.className ids steps ∧ ids.memberNames.Nodup := by
  intro apart
  have valid : Validation.problems (sizesPackage "size" "sizeParameter") = [] := by
    decide +kernel
  obtain ⟨text, rendered⟩ : ∃ text, renderMethod .standard (sizesPackage "size" "sizeParameter")
      (sizesMethod "size" "sizeParameter") = .ok text := ⟨_, rfl⟩
  obtain ⟨ids, -, collected, -, -, distinct⟩ :=
    apart .standard _ _ text valid List.mem_cons_self rendered
  have spells : SpellsDescription (sizesMethod "size" "sizeParameter") := by decide
  exact (DataIds.nodup_memberNames_iff collected).mp distinct spells

end Emission
end OperatorGen
