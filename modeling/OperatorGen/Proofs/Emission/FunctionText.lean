import OperatorGen.Proofs.Emission.FirstSeen
import OperatorGen.Proofs.Emission.Sections

/-!
# The text of functions

A function stands in a file as its signature, with its code in braces behind it
(`HasFunction`), and an enumeration as its enumerators (`HasEnumeration`). What several
functions have in common is written out here as it is read in the file: a switch over ids, the
list that a function returns, and the place where the code of an option stands
(`Setup.Selects`), which is a case of a switch on the data flow if the operator selects options
(`SelectsOption`). The functions of a file have these texts (`listsByOption_connectors`,
`executesByOption_fileSteps`).
-/
namespace OperatorGen

/-! ## Choice of options -/

/-- An operator selects options by the data flow: there is a choice of options, or an argument,
    no constant, is spelled like the data flow. -/
def SelectsOption (method : Method) : Prop :=
  1 < method.options.length ∨ dataFlow ∈ method.idents

instance : DecidablePred SelectsOption := fun _ => inferInstanceAs (Decidable (_ ∨ _))

theorem DataIds.hasDataFlow_iff {method : Method} {ids : DataIds}
    (collected : collect method = .ok ids) : ids.hasDataFlow = true ↔ SelectsOption method := by
  rw [hasDataFlow, List.contains_iff_mem, ids_of_collect collected, List.mem_append, or_comm,
    SelectsOption]
  refine or_congr_left ?_
  rw [Method.selector]
  by_cases choice : 1 < method.options.length
  · simp [choice]
  · simp [choice]

namespace Setup

/-- The text of the line that opens a switch on the data flow. -/
def switchText : String :=
  "switch(int(" ++ dataFlow.member ++ "))"

/-- Code for the options of a method: with a choice a switch on the data flow with a case for
    each option, and otherwise the code of the only option. -/
structure Selects (choice : Prop) (method : Method) (code : MethodOption → List Step)
    (steps : List Step) : Prop where
  switched : choice → steps =
    [Step.line switchText, .line "\x7b"] ++
      (method.options.flatMap fun option =>
        [Step.line ("case(" ++ option.ident.constant ++ "):")] ++
          Step.nested (Step.scope (code option) ++ [Step.line "break;"])) ++
      [Step.line "\x7d"]
  inline : ¬ choice → ∀ option, method.options = [option] → steps = code option

theorem selects_forEachOption {ids : DataIds} {method : Method} {choice : Prop}
    {code : MethodOption → List Step} (decides : ids.hasDataFlow = true ↔ choice) :
    Selects choice method code (forEachOption ids method code) where
  switched := fun chosen => by
    rw [forEachOption, if_pos (decides.mpr chosen)]
    rfl
  inline := fun other option single => by
    rw [forEachOption, if_neg fun flow => other (decides.mp flow), single]
    rfl

/-- Code stands in the case of an option. -/
theorem infix_case (label : String) (code : List Step) :
    code <:+: [Step.line label] ++ Step.nested (Step.scope code ++ [Step.line "break;"]) :=
  (Emission.infix_scope code).trans
    ⟨[Step.line label, .indent], [Step.line "break;", .dedent], by simp [Step.nested]⟩

/-- Code stands for an option in what is selected. -/
theorem Selects.infix_of_mem {choice : Prop} {method : Method} {code : MethodOption → List Step}
    {steps : List Step} (selects : Selects choice method code steps)
    (reached : choice ∨ method.options.length ≤ 1) {option : MethodOption}
    (member : option ∈ method.options) : code option <:+: steps := by
  by_cases chosen : choice
  · have inCases := (infix_case ("case(" ++ option.ident.constant ++ "):") (code option)).trans
      (Emission.infix_flatMap member fun option =>
        [Step.line ("case(" ++ option.ident.constant ++ "):")] ++
          Step.nested (Step.scope (code option) ++ [Step.line "break;"]))
    rw [selects.switched chosen]
    exact inCases.trans (List.infix_append _ _ _)
  · have single : method.options.length ≤ 1 := reached.resolve_left chosen
    obtain ⟨only, others, split⟩ := List.exists_cons_of_ne_nil (List.ne_nil_of_mem member)
    rw [split, List.length_cons] at single
    obtain rfl : others = [] := List.length_eq_zero_iff.mp (by omega)
    rw [split, List.mem_singleton] at member
    have whole : steps = code option := member ▸ selects.inline chosen only split
    exact whole ▸ List.infix_rfl

/-- Entries with a comma behind every one but the last. -/
def commaSeparated (entries : List String) : List String :=
  entries.mapIdx fun index entry =>
    if index + 1 < entries.length then entry ++ "," else entry

theorem separated_eq (entries : List String) : separated entries = commaSeparated entries := by
  induction entries with
  | nil => rfl
  | cons first rest ih =>
    cases rest with
    | nil => simp [separated, commaSeparated]
    | cons second others =>
      have split : separated (first :: second :: others) =
          (first ++ ",") :: separated (second :: others) := rfl
      rw [split, ih]
      simp [commaSeparated, List.mapIdx_cons]

end Setup

namespace Emission

/-! ## Enumerations and functions -/

/-- Steps of a file have an enumeration, whose enumerators are separated by commas. -/
def HasEnumeration (name : String) (enumerators : List String) (steps : List Step) : Prop :=
  [Step.line ("enum " ++ name), .line "\x7b"] ++
    Step.nested ((Setup.commaSeparated enumerators).map .line) ++ [Step.line "\x7d;"] <:+: steps

/-- Steps of a file have a function, whose code stands in braces behind its signature. -/
def HasFunction (signature : String) (code steps : List Step) : Prop :=
  [Step.line signature] ++ Step.scope code <:+: steps

/-- The cases of a switch over ids, and an exception for any other id. -/
def caseList (config : Config) (cases : List (List Step)) : List Step :=
  [Step.line "switch(id)", .line "\x7b"] ++ cases.flatten ++
    ([Step.line "default:"] ++
      Step.nested [Step.line ("throw " ++ config.runtime "WrongParameterId" ++ "(id, *this);")]) ++
    [Step.line "\x7d"]

/-- The function that returns a parameter for its id has these cases. -/
def HasGetter (config : Config) (className : String) (cases : List (List Step))
    (steps : List Step) : Prop :=
  HasFunction
    ("const " ++ config.runtime "DataRef" ++ " " ++ className ++
      "::getParameter(unsigned int id) const")
    (caseList config cases) steps

/-- The function that sets a parameter for its id has these cases, and refuses values that
    cannot be converted. -/
def HasSetter (config : Config) (className : String) (cases : List (List Step))
    (steps : List Step) : Prop :=
  HasFunction
    ("void " ++ className ++ "::setParameter(unsigned int id, const " ++
      config.runtime "Data" ++ "& value)")
    ([Step.line "try"] ++ Step.scope (caseList config cases) ++
      [Step.line ("catch(" ++ config.runtime "BadCast" ++ "&)")] ++
      Step.scope
        [Step.line ("throw " ++ config.runtime "WrongParameterType" ++ "(parameter(id), *this);")])
    steps

/-! ## Functions that list descriptions -/

/-- The signature of a function that lists the descriptions of some elements. -/
def listSignature (config : Config) (className function element : String) : String :=
  "const " ++ ("std::vector<const " ++ config.runtime element ++ "*>") ++ " " ++ className ++
    "::" ++ function ++ "()"

/-- The code of a function that lists elements: the list is declared, and it is returned behind
    what puts elements into it. -/
def listCode (config : Config) (element list : String) (entries : List Step) : List Step :=
  [Step.line ("std::vector<const " ++ config.runtime element ++ "*>" ++ " " ++ list ++ ";"),
   .line ""] ++ entries ++ [Step.line ("return " ++ list ++ ";")]

/-- A function lists what is put into its list for all options together. -/
def ListsAll (config : Config) (className function element list : String)
    (entries steps : List Step) : Prop :=
  HasFunction (listSignature config className function element)
    (listCode config element list entries) steps

/-- A function lists elements by option: what is put into its list for an option stands where
    the option is selected, with an empty line behind the switch if there is one. -/
def ListsByOption (config : Config) (method : Method) (function element list : String)
    (entries : MethodOption → List Step) (steps : List Step) : Prop :=
  ∃ selected, Setup.Selects (SelectsOption method) method entries selected ∧
    ListsAll config method.ident.className function element list
      (selected ++ if SelectsOption method then [.line ""] else []) steps

/-- The function that executes an operator does for an option what stands where the option is
    selected. -/
def ExecutesByOption (config : Config) (method : Method) (body : MethodOption → List Step)
    (steps : List Step) : Prop :=
  ∃ selected, Setup.Selects (SelectsOption method) method body selected ∧
    HasFunction ("void " ++ method.ident.className ++ "::execute(" ++
      config.runtime "DataProvider" ++ " & provider)") selected steps

/-- The code of a function stands in the file. -/
theorem HasFunction.code_infix {signature : String} {code steps : List Step}
    (has : HasFunction signature code steps) : code <:+: steps :=
  ((infix_scope code).trans (List.suffix_append _ _).isInfix).trans has

theorem infix_listCode (config : Config) (element list : String) (entries : List Step) :
    entries <:+: listCode config element list entries :=
  List.infix_append _ _ _

/-- What is put into the list of a function stands in the file. -/
theorem ListsAll.entries_infix {config : Config} {className function element list : String}
    {entries steps : List Step}
    (lists : ListsAll config className function element list entries steps) :
    entries <:+: steps :=
  (infix_listCode config element list entries).trans (HasFunction.code_infix lists)

/-- What is put into the list of a function for an option stands in the file. -/
theorem ListsByOption.infix_of_mem {config : Config} {method : Method}
    {function element list : String} {entries : MethodOption → List Step} {steps : List Step}
    (lists : ListsByOption config method function element list entries steps)
    {option : MethodOption} (member : option ∈ method.options) : entries option <:+: steps := by
  obtain ⟨selected, selects, inFile⟩ := lists
  have reached : SelectsOption method ∨ method.options.length ≤ 1 :=
    (Nat.lt_or_ge 1 method.options.length).imp_left .inl
  exact ((selects.infix_of_mem reached member).trans (List.prefix_append _ _).isInfix).trans
    inFile.entries_infix

/-! ## Functions in the file of a method -/

variable {config : Config} {package : Package} {method : Method} {ids : DataIds}
  {executed : List Step}

theorem hasEnumeration_fileSteps :
    HasEnumeration "DataId" (ids.ids.map Ident.constant)
      (fileSteps config package method (partsOf config method ids executed)) := by
  have enumerated : enumeration "DataId" (ids.ids.map Ident.constant) <:+:
      fileSteps config package method (partsOf config method ids executed) :=
    @enumeration_infix_fileSteps config package method (partsOf config method ids executed)
  rwa [enumeration, Setup.separated_eq] at enumerated

theorem hasGetter_fileSteps :
    HasGetter config method.ident.className
      (ids.parameters.map fun node => Access.getCase node.ident)
      (fileSteps config package method (partsOf config method ids executed)) := by
  have getter : Access.getter config method.ident.className ids <:+:
      fileSteps config package method (partsOf config method ids executed) :=
    getter_infix_fileSteps (partsOf config method ids executed)
  rw [Access.getter, List.flatMap_def] at getter
  exact getter

theorem hasSetter_fileSteps :
    HasSetter config method.ident.className (ids.parameters.map (Access.setNodeCase config))
      (fileSteps config package method (partsOf config method ids executed)) := by
  have setter : Access.setter config method.ident.className
        (ids.parameters.flatMap (Access.setNodeCase config)) <:+:
      fileSteps config package method (partsOf config method ids executed) :=
    setter_infix_fileSteps (partsOf config method ids executed)
  rw [List.flatMap_def] at setter
  exact setter

/-- What is described before the initialization is listed for all options together. -/
theorem listsAll_fileSteps :
    ListsAll config method.ident.className "setupInitParameters" "Parameter" "parameters"
      (Setup.initDescriptions config ids)
      (fileSteps config package method (partsOf config method ids executed)) :=
  initParameters_infix_fileSteps (partsOf config method ids executed)

/-- With a choice of options there is an empty line behind the switch of a function. -/
theorem listsAll_of_infix {className function element list : String} {selected steps : List Step}
    (collected : DataIds.collect method = .ok ids)
    (inFile : Setup.listFunction config className function element list
      (selected ++ Setup.afterSwitch ids) <:+: steps) :
    ListsAll config className function element list
      (selected ++ if SelectsOption method then [.line ""] else []) steps := by
  have behind : Setup.afterSwitch ids = if SelectsOption method then [.line ""] else [] :=
    if_congr (DataIds.hasDataFlow_iff collected) rfl rfl
  rw [behind] at inFile
  exact inFile

/-- What is described after the initialization is listed for the options of the method. -/
theorem listsAll_parameters (collected : DataIds.collect method = .ok ids) :
    ListsAll config method.ident.className "setupParameters" "Parameter" "parameters"
      (Setup.forEachOption ids method (Setup.laterDescriptions config) ++
        if SelectsOption method then [.line ""] else [])
      (fileSteps config package method (partsOf config method ids executed)) := by
  have inFile : Setup.parameters config method.ident.className ids
        (Setup.forEachOption ids method (Setup.laterDescriptions config)) <:+:
      fileSteps config package method (partsOf config method ids executed) :=
    parameters_infix_fileSteps (partsOf config method ids executed)
  exact listsAll_of_infix collected inFile

theorem listsByOption_parameters (collected : DataIds.collect method = .ok ids) :
    ListsByOption config method "setupParameters" "Parameter" "parameters"
      (Setup.laterDescriptions config)
      (fileSteps config package method (partsOf config method ids executed)) :=
  ⟨_, Setup.selects_forEachOption (DataIds.hasDataFlow_iff collected),
    listsAll_parameters collected⟩

/-- The inputs and the outputs are listed by option. -/
theorem listsByOption_connectors (collected : DataIds.collect method = .ok ids)
    (side : Setup.Side) :
    ListsByOption config method side.function "Description" side.list
      (Setup.connectionSteps config side)
      (fileSteps config package method (partsOf config method ids executed)) := by
  have inFile : Setup.connectors config method.ident.className ids side
        (Setup.forEachOption ids method (Setup.connectionSteps config side)) <:+:
      fileSteps config package method (partsOf config method ids executed) := by
    cases side with
    | inputs => exact inputs_infix_fileSteps (partsOf config method ids executed)
    | outputs => exact outputs_infix_fileSteps (partsOf config method ids executed)
  exact ⟨_, Setup.selects_forEachOption (DataIds.hasDataFlow_iff collected),
    listsAll_of_infix collected inFile⟩

/-- What an option executes stands where the option is selected. -/
theorem executesByOption_fileSteps (collected : DataIds.collect method = .ok ids)
    (body : MethodOption → List Body.Statement) :
    ExecutesByOption config method (fun option => Body.code config (body option))
      (fileSteps config package method (partsWith config method ids body)) := by
  have inFile : execute config method.ident.className
        (Setup.forEachOption ids method fun option => Body.code config (body option)) <:+:
      fileSteps config package method (partsWith config method ids body) :=
    @execute_infix_fileSteps config package method (partsWith config method ids body)
  exact ⟨_, Setup.selects_forEachOption (DataIds.hasDataFlow_iff collected), inFile⟩

end Emission
end OperatorGen
