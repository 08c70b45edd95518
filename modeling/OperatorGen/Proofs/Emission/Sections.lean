import OperatorGen.Emission.File
import OperatorGen.Proofs.Emission.DataIds
import OperatorGen.Proofs.Emission.Options
import OperatorGen.Proofs.FirstError

/-!
# Sections of a file

The file of a method is put together from sections (`mainSections`), each of which stands in
it as it was made (`infix_fileSteps`). Behind them come the converters and what is executed
(`converters_infix_fileSteps`). What the sections hold is decided by the ids of the method
and the code of its options (`partsOf`, `exists_bodies`).
-/
namespace OperatorGen.Emission

theorem infix_sections {part : List Step} {parts : List (List Step)} (member : part ∈ parts) :
    part <:+: sections parts := by
  induction parts with
  | nil => cases member
  | cons first rest ih =>
    cases rest with
    | nil =>
      obtain rfl := List.mem_singleton.mp member
      exact List.infix_rfl
    | cons second others =>
      have split : sections (first :: second :: others) =
          first ++ [Step.blank] ++ sections (second :: others) := rfl
      rw [split]
      rcases List.mem_cons.mp member with rfl | later
      · exact ⟨[], [Step.blank] ++ sections (second :: others), by simp⟩
      · exact (ih later).trans (List.suffix_append _ _).isInfix

/-- The last section ends the sections. -/
theorem suffix_sections {part : List Step} {parts : List (List Step)}
    (last : parts.getLast? = some part) : part <:+ sections parts := by
  induction parts with
  | nil => cases last
  | cons first rest ih =>
    cases rest with
    | nil =>
      obtain rfl := Option.some.inj last
      exact List.suffix_rfl
    | cons second others =>
      have split : sections (first :: second :: others) =
          first ++ [Step.blank] ++ sections (second :: others) := rfl
      rw [List.getLast?_cons_cons] at last
      rw [split]
      exact (ih last).trans (List.suffix_append _ _)

/-- What is made of an element stands among what is made of all. -/
theorem infix_flatMap {α : Type} {x : α} {list : List α} (member : x ∈ list)
    (make : α → List Step) : make x <:+: list.flatMap make := by
  obtain ⟨front, back, rfl⟩ := List.append_of_mem member
  rw [List.flatMap_append, List.flatMap_cons, ← List.append_assoc]
  exact List.infix_append _ _ _

theorem infix_scope (steps : List Step) : steps <:+: Step.scope steps :=
  ⟨[.line "\x7b", .indent], [.dedent, .line "\x7d"], by simp [Step.scope, Step.nested]⟩

variable {config : Config} {package : Package} {method : Method} {parts : Parts}

/-- The sections of a file before the converters. -/
def mainSections (config : Config) (package : Package) (method : Method) (parts : Parts) :
    List (List Step) :=
  let className := method.ident.className
  [constants config package className,
   idEnumerations parts.ids method,
   Setup.constructor config className parts.ids,
   Access.getter config className parts.ids,
   Access.setter config className parts.setCases,
   Setup.initParameters config className parts.initParameters,
   Setup.parameters config className parts.ids parts.parameters,
   Setup.connectors config className parts.ids .inputs parts.inputs,
   Setup.connectors config className parts.ids .outputs parts.outputs,
   Setup.initialization config className]

theorem content_eq : content config package method parts =
    sections (mainSections config package method parts) ++
      parts.ids.parameters.flatMap (nodeConverter config method.ident.className) ++
      [Step.blank] ++ execute config method.ident.className parts.executed := rfl

theorem content_infix_fileSteps :
    content config package method parts <:+: fileSteps config package method parts :=
  (infix_scope _).trans (List.suffix_append _ _).isInfix

/-- A section stands in the file as it was made. -/
theorem infix_fileSteps {part : List Step}
    (member : part ∈ mainSections config package method parts) :
    part <:+: fileSteps config package method parts := by
  have inContent : sections (mainSections config package method parts) <+:
      content config package method parts := by
    rw [content_eq, List.append_assoc, List.append_assoc]
    exact List.prefix_append _ _
  exact ((infix_sections member).trans inContent.isInfix).trans content_infix_fileSteps

section

variable (parts : Parts)

theorem constructor_infix_fileSteps :
    Setup.constructor config method.ident.className parts.ids <:+:
      fileSteps config package method parts :=
  infix_fileSteps (by simp [mainSections])

theorem getter_infix_fileSteps :
    Access.getter config method.ident.className parts.ids <:+:
      fileSteps config package method parts :=
  infix_fileSteps (by simp [mainSections])

theorem setter_infix_fileSteps :
    Access.setter config method.ident.className parts.setCases <:+:
      fileSteps config package method parts :=
  infix_fileSteps (by simp [mainSections])

theorem initParameters_infix_fileSteps :
    Setup.initParameters config method.ident.className parts.initParameters <:+:
      fileSteps config package method parts :=
  infix_fileSteps (by simp [mainSections])

theorem parameters_infix_fileSteps :
    Setup.parameters config method.ident.className parts.ids parts.parameters <:+:
      fileSteps config package method parts :=
  infix_fileSteps (by simp [mainSections])

theorem inputs_infix_fileSteps :
    Setup.connectors config method.ident.className parts.ids .inputs parts.inputs <:+:
      fileSteps config package method parts :=
  infix_fileSteps (by simp [mainSections])

theorem outputs_infix_fileSteps :
    Setup.connectors config method.ident.className parts.ids .outputs parts.outputs <:+:
      fileSteps config package method parts :=
  infix_fileSteps (by simp [mainSections])

end

theorem execute_infix_fileSteps :
    execute config method.ident.className parts.executed <:+:
      fileSteps config package method parts := by
  refine List.IsInfix.trans ?_ content_infix_fileSteps
  rw [content_eq]
  exact (List.suffix_append _ _).isInfix

/-- Between the last section and the function that executes the operator there are the
    converters, and nothing else. -/
theorem converters_infix_fileSteps :
    Setup.initialization config method.ident.className ++
        parts.ids.parameters.flatMap (nodeConverter config method.ident.className) ++
        [Step.blank] ++ execute config method.ident.className parts.executed <:+:
      fileSteps config package method parts := by
  refine List.IsInfix.trans ?_ content_infix_fileSteps
  obtain ⟨others, same⟩ : Setup.initialization config method.ident.className <:+
      sections (mainSections config package method parts) := suffix_sections rfl
  rw [content_eq, ← same]
  exact ⟨others, [], by simp only [List.append_assoc, List.append_nil]⟩

/-- The ids of a method and of its options are enumerated in its file. -/
theorem idEnumerations_infix_fileSteps :
    idEnumerations parts.ids method <:+: fileSteps config package method parts := by
  have inMain : idEnumerations parts.ids method ∈ mainSections config package method parts := by
    simp [mainSections]
  exact infix_fileSteps inMain

theorem enumeration_infix_fileSteps :
    enumeration "DataId" (parts.ids.ids.map Ident.constant) <:+:
      fileSteps config package method parts :=
  (List.prefix_append _ _).isInfix.trans idEnumerations_infix_fileSteps

/-! ## Parts -/

/-- The parts of a file, given the ids of the method and the code of its options. -/
def partsOf (config : Config) (method : Method) (ids : DataIds) (executed : List Step) : Parts where
  ids
  setCases := ids.parameters.flatMap (Access.setNodeCase config)
  initParameters := Setup.initDescriptions config ids
  parameters := Setup.forEachOption ids method (Setup.laterDescriptions config)
  inputs := Setup.forEachOption ids method (Setup.connectionSteps config .inputs)
  outputs := Setup.forEachOption ids method (Setup.connectionSteps config .outputs)
  executed

/-- What the parts of a file are made of. -/
theorem exists_partsOf_of_parts (made : Emission.parts config method = .ok parts) :
    ∃ ids executed, DataIds.collect method = .ok ids ∧
      Setup.tryForEachOption ids method (optionCode config method) = .ok executed ∧
      parts = partsOf config method ids executed := by
  rw [Emission.parts, bind_ok_iff] at made
  obtain ⟨ids, collected, made⟩ := made
  rw [bind_ok_iff] at made
  obtain ⟨executed, done, same⟩ := made
  cases same
  exact ⟨ids, executed, collected, done, rfl⟩

/-- A file that is rendered is laid out from its parts. -/
theorem renderMethod_ok_iff {text : String} :
    renderMethod config package method = .ok text ↔
      ∃ parts, Emission.parts config method = .ok parts ∧
        text = Document.render config.indentWidth (fileSteps config package method parts) := by
  simp only [renderMethod, bind_ok_iff, Except.ok.injEq, eq_comm (a := text)]

/-- What is behind a file that is rendered. -/
theorem exists_partsOf {text : String} (rendered : renderMethod config package method = .ok text) :
    ∃ ids executed, DataIds.collect method = .ok ids ∧
      Setup.tryForEachOption ids method (optionCode config method) = .ok executed ∧
      text = Document.render config.indentWidth
        (fileSteps config package method (partsOf config method ids executed)) := by
  obtain ⟨parts, made, same⟩ := renderMethod_ok_iff.mp rendered
  obtain ⟨ids, executed, collected, done, rfl⟩ := exists_partsOf_of_parts made
  exact ⟨ids, executed, collected, done, same⟩

/-- The parts of a file, given the ids of the method and the statements of its options. -/
def partsWith (config : Config) (method : Method) (ids : DataIds)
    (body : MethodOption → List Body.Statement) : Parts :=
  partsOf config method ids
    (Setup.forEachOption ids method fun option => Body.code config (body option))

/-- What is executed, given the statements of the options. -/
theorem tryForEachOption_bodies {ids : DataIds} {body : MethodOption → List Body.Statement}
    (bodies : ∀ option ∈ method.options,
      Body.ofOption method.nativeFunction option = .ok (body option)) :
    Setup.tryForEachOption ids method (optionCode config method) =
      .ok (Setup.forEachOption ids method fun option => Body.code config (body option)) :=
  Setup.tryForEachOption_eq fun option member => by
    rw [optionCode, bodies option member, Except.map]

/-- The parts of a file have statements for every option of the method. -/
theorem exists_partsWith (made : Emission.parts config method = .ok parts) :
    ∃ (ids : DataIds) (body : MethodOption → List Body.Statement),
      DataIds.collect method = .ok ids ∧
      (∀ option ∈ method.options,
        Body.ofOption method.nativeFunction option = .ok (body option)) ∧
      parts = partsWith config method ids body := by
  obtain ⟨ids, executed, collected, done, same⟩ := exists_partsOf_of_parts made
  have reached := DataIds.hasDataFlow_or_single collected
  -- The statements of each option, which is known to have some.
  let body (option : MethodOption) : List Body.Statement :=
    (Body.ofOption method.nativeFunction option).toOption.getD []
  have bodies : ∀ option ∈ method.options,
      Body.ofOption method.nativeFunction option = .ok (body option) := by
    intro option member
    obtain ⟨code, coded⟩ := Setup.exists_of_tryForEachOption_ok reached done member
    rw [optionCode, map_ok_iff] at coded
    obtain ⟨statements, stated, -⟩ := coded
    simp only [body, stated, Except.toOption, Option.getD_some]
  have executes : executed =
      Setup.forEachOption ids method fun option => Body.code config (body option) :=
    Except.ok.inj (done.symm.trans (tryForEachOption_bodies bodies))
  rw [executes] at same
  exact ⟨ids, body, collected, bodies, same⟩

/-- A file that is rendered has statements for every option of the method. -/
theorem exists_bodies {text : String} (rendered : renderMethod config package method = .ok text) :
    ∃ (ids : DataIds) (body : MethodOption → List Body.Statement),
      DataIds.collect method = .ok ids ∧
      (∀ option ∈ method.options,
        Body.ofOption method.nativeFunction option = .ok (body option)) ∧
      text = Document.render config.indentWidth
        (fileSteps config package method (partsWith config method ids body)) := by
  obtain ⟨parts, made, same⟩ := renderMethod_ok_iff.mp rendered
  obtain ⟨ids, body, collected, bodies, rfl⟩ := exists_partsWith made
  exact ⟨ids, body, collected, bodies, same⟩

/-- A method whose ids and statements are found has the file that is made of them. -/
theorem renderMethod_of_bodies {ids : DataIds} {body : MethodOption → List Body.Statement}
    (collected : DataIds.collect method = .ok ids)
    (bodies : ∀ option ∈ method.options,
      Body.ofOption method.nativeFunction option = .ok (body option)) :
    renderMethod config package method =
      .ok (Document.render config.indentWidth
        (fileSteps config package method (partsWith config method ids body))) := by
  rw [renderMethod, Emission.parts, collected]
  simp only [bind, Except.bind, tryForEachOption_bodies bodies]
  rfl

end OperatorGen.Emission
