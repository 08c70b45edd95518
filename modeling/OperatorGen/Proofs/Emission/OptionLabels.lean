import OperatorGen.Proofs.Emission.DataFlow

/-!
# Labels of options

The spelling of an option gives an enumerator, which is also the label of its cases, and the
enumerators of the ids stand in the same scope. Validation compares the enumerators of
arguments among one another, and it does not look at those of options. So the options of a
valid package may share an enumerator with one another (`DistinguishesOptions` fails), or
with an id (`OptionTakesId`). Otherwise all of them are distinct, and every switch has
exactly one case for each option (`rendered_labels`).
-/
namespace OperatorGen

/-- No two options of a method have one enumerator. -/
def DistinguishesOptions (method : Method) : Prop :=
  method.options.Pairwise fun a b => a.ident.constant ≠ b.ident.constant

instance : DecidablePred DistinguishesOptions := fun _ =>
  inferInstanceAs (Decidable (List.Pairwise _ _))

/-- An option of a method has the enumerator of the data flow, or that of an argument other than
    a constant. -/
def OptionTakesId (method : Method) : Prop :=
  ∃ option ∈ method.options, option.ident.constant = dataFlow.constant ∨
    ∃ node ∈ method.arguments, node.hasId = true ∧ node.ident.constant = option.ident.constant

instance : DecidablePred OptionTakesId := fun _ => inferInstanceAs (Decidable (∃ _ ∈ _, _))

theorem nodup_optionEnumerators_iff {method : Method} :
    method.optionEnumerators.Nodup ↔ DistinguishesOptions method :=
  List.pairwise_map

namespace DataIds

/-- With a choice of options, the enumerators of the ids are those of the arguments other than
    constants, and that of the data flow. -/
theorem mem_enumerators_iff {method : Method} {ids : DataIds} (choice : 1 < method.options.length)
    (collected : collect method = .ok ids) {enumerator : String} :
    enumerator ∈ ids.enumerators ↔ enumerator = dataFlow.constant ∨
      ∃ node ∈ method.arguments, node.hasId = true ∧ node.ident.constant = enumerator := by
  rw [enumerators, ids_of_collect collected, Method.selector, if_pos choice, List.map_append,
    List.mem_append, List.map_singleton, List.mem_singleton, or_comm]
  refine or_congr_right ?_
  simp only [Method.idents, List.mem_map, List.mem_eraseDups, List.mem_filter]
  constructor
  · rintro ⟨_, ⟨node, ⟨inMethod, id⟩, rfl⟩, same⟩
    exact ⟨node, inMethod, id, same⟩
  · rintro ⟨node, inMethod, id, same⟩
    exact ⟨node.ident, ⟨node, ⟨inMethod, id⟩, rfl⟩, same⟩

/-- The enumerators of the options are apart from those of the ids exactly if no option takes
    one. -/
theorem enumerators_apart_iff {method : Method} {ids : DataIds}
    (choice : 1 < method.options.length) (collected : collect method = .ok ids) :
    (∀ enumerator ∈ method.optionEnumerators, enumerator ∉ ids.enumerators) ↔
      ¬ OptionTakesId method := by
  simp only [Method.optionEnumerators, List.forall_mem_map, mem_enumerators_iff choice collected]
  constructor
  · rintro apart ⟨option, member, takes⟩
    exact apart option member takes
  · intro apart option member takes
    exact apart ⟨option, member, takes⟩

end DataIds

/-! ## Selection by a label -/

namespace Setup

/-- The cases with a label among the lines of the level of a function. -/
def casesFor (label : String) (steps : List Step) : List Heading :=
  (Step.headings steps).filter fun heading => heading.text = "case(" ++ label ++ "):"

/-- By the enumerator of each option a function selects one case, which holds the code for that
    option. -/
def SelectsOne (options : List MethodOption) (code : MethodOption → List Step)
    (steps : List Step) : Prop :=
  ∀ option ∈ options, casesFor option.ident.constant steps = [caseHeading code option]

theorem caseLabel_inj {a b : String} : "case(" ++ a ++ "):" = "case(" ++ b ++ "):" ↔ a = b := by
  constructor
  · intro same
    have chars := congrArg String.toList same
    simp only [String.toList_append, List.append_left_inj, List.append_right_inj] at chars
    exact String.toList_injective chars
  · intro same
    rw [same]

variable {options : List MethodOption} {code : MethodOption → List Step} {steps : List Step}

/-- A label selects the cases of the options that have it as their enumerator. -/
theorem casesFor_eq (dispatches : Dispatches options code steps) (label : String) :
    casesFor label steps =
      (options.filter fun option => option.ident.constant = label).map (caseHeading code) := by
  obtain ⟨before, behind, read, apart⟩ := dispatches
  have opens : ∀ {heading : Heading}, heading.text = "case(" ++ label ++ "):" →
      OpensCase heading := by
    intro heading same
    rw [OpensCase, same, String.append_assoc, String.toList_append]
    exact List.prefix_append _ _
  have none : ∀ others : List Heading, (∀ heading ∈ others, ¬ OpensCase heading) →
      others.filter (fun heading => heading.text = "case(" ++ label ++ "):") = [] := by
    intro others closed
    rw [List.filter_eq_nil_iff]
    intro heading member labelled
    exact closed heading member (opens (of_decide_eq_true labelled))
  rw [List.forall_mem_append] at apart
  have line (text : String) (other : ¬ OpensCase (Step.bare text)) :
      ∀ heading ∈ [Step.bare text], ¬ OpensCase heading := List.forall_mem_singleton.mpr other
  have opening := none [Step.bare switchText, Step.bare "\x7b"]
    (List.forall_mem_cons.mpr ⟨by decide, line _ (by decide)⟩)
  have closing := none (Step.bare "\x7d" :: behind) (List.forall_mem_cons.mpr ⟨by decide, apart.2⟩)
  simp only [casesFor, read, List.filter_append, none _ apart.1, opening, closing, List.filter_map,
    Function.comp_def, caseHeading, caseLabel_inj, List.nil_append, List.append_nil]

/-- A function that dispatches on options selects one case by each enumerator exactly if the
    enumerators are distinct. -/
theorem selectsOne_iff (dispatches : Dispatches options code steps) :
    SelectsOne options code steps ↔
      (options.map fun option => option.ident.constant).Nodup := by
  have count (label : String) :
      (options.map fun option => option.ident.constant).count label =
        (casesFor label steps).length := by
    rw [casesFor_eq dispatches, List.length_map, List.count, List.countP_map,
      ← List.countP_eq_length_filter]
    refine List.countP_congr fun option _ => ?_
    rw [Function.comp_apply, beq_iff_eq, decide_eq_true_iff]
  rw [List.nodup_iff_count_eq_one, List.forall_mem_map]
  refine forall₂_congr fun option member => ?_
  rw [count]
  constructor
  · intro selected
    rw [selected]
    rfl
  · intro single
    obtain ⟨heading, same⟩ := List.length_eq_one_iff.mp single
    have own : caseHeading code option ∈ casesFor option.ident.constant steps := by
      rw [casesFor_eq dispatches]
      exact List.mem_map_of_mem (List.mem_filter.mpr ⟨member, decide_eq_true rfl⟩)
    rw [same, List.mem_singleton] at own
    rw [same, own]

end Setup

/-! ## Files -/

namespace Emission

variable {config : Config} {package : Package} {method : Method}

/-- What holds of the functions that depend on the option holds in other words too. -/
theorem EachFunction.imp {body : MethodOption → List Body.Statement}
    {holds others : (MethodOption → List Step) → List Step → Prop} {steps : List Step}
    (each : EachFunction config method body holds steps)
    (implies : ∀ code steps, holds code steps → others code steps) :
    EachFunction config method body others steps where
  parameters :=
    have ⟨code, inFile, held⟩ := each.parameters
    ⟨code, inFile, implies _ _ held⟩
  inputs :=
    have ⟨code, inFile, held⟩ := each.inputs
    ⟨code, inFile, implies _ _ held⟩
  outputs :=
    have ⟨code, inFile, held⟩ := each.outputs
    ⟨code, inFile, implies _ _ held⟩
  executed :=
    have ⟨code, inFile, held⟩ := each.executed
    ⟨code, inFile, implies _ _ held⟩

/-- With a choice of options, the enumerators of the options are distinct exactly if the method
    distinguishes its options, and then every switch on the data flow has one case for each;
    they are apart from the enumerators of the ids exactly if no option takes one of those. -/
theorem rendered_labels {text : String} (choice : 1 < method.options.length)
    (rendered : renderMethod config package method = .ok text) :
    ∃ (ids : DataIds) (body : MethodOption → List Body.Statement) (steps : List Step),
      DataIds.collect method = .ok ids ∧
      (∀ option ∈ method.options,
        Body.ofOption method.nativeFunction option = .ok (body option)) ∧
      text = Document.render config.indentWidth steps ∧
      HasEnumeration "DataId" ids.enumerators steps ∧
      HasEnumeration "DataFlowId" method.optionEnumerators steps ∧
      (method.optionEnumerators.Nodup ↔ DistinguishesOptions method) ∧
      ((∀ enumerator ∈ method.optionEnumerators, enumerator ∉ ids.enumerators) ↔
        ¬ OptionTakesId method) ∧
      EachFunction config method body (fun code steps =>
        Setup.SelectsOne method.options code steps ↔ DistinguishesOptions method) steps := by
  obtain ⟨ids, body, collected, bodies, same⟩ := exists_bodies rendered
  have flow : ids.hasDataFlow = true := (DataIds.hasDataFlow_iff collected).mpr (.inl choice)
  have dispatches := @dispatches_fileSteps config package method ids body collected choice
  refine ⟨ids, body, _, collected, bodies, same, hasEnumeration_fileSteps,
    hasEnumeration_options flow, nodup_optionEnumerators_iff,
    DataIds.enumerators_apart_iff choice collected, dispatches.imp fun code steps dispatched => ?_⟩
  exact (Setup.selectsOne_iff dispatched).trans nodup_optionEnumerators_iff

/-- The options `manual` and `allocate` have labels of their own. -/
theorem choiceMethod_labels :
    ∃ text,
      renderMethod .standard (parameterPackage ⟨"ksize"⟩) (choiceMethod ⟨"ksize"⟩) = .ok text ∧
      ∃ (ids : DataIds) (body : MethodOption → List Body.Statement) (steps : List Step),
        DataIds.collect (choiceMethod ⟨"ksize"⟩) = .ok ids ∧
        text = Document.render Config.standard.indentWidth steps ∧
        (choiceMethod ⟨"ksize"⟩).optionEnumerators.Nodup ∧
        (∀ enumerator ∈ (choiceMethod ⟨"ksize"⟩).optionEnumerators,
          enumerator ∉ ids.enumerators) ∧
        EachFunction .standard (choiceMethod ⟨"ksize"⟩) body
          (Setup.SelectsOne (choiceMethod ⟨"ksize"⟩).options) steps := by
  obtain ⟨text, rendered⟩ : ∃ text, renderMethod .standard (parameterPackage ⟨"ksize"⟩)
      (choiceMethod ⟨"ksize"⟩) = .ok text := ⟨_, rfl⟩
  have choice : 1 < (choiceMethod ⟨"ksize"⟩).options.length := by decide
  have distinguishes : DistinguishesOptions (choiceMethod ⟨"ksize"⟩) := by decide
  obtain ⟨ids, body, steps, collected, -, same, -, -, distinct, apart, selects⟩ :=
    rendered_labels choice rendered
  exact ⟨text, rendered, ids, body, steps, collected, same, distinct.mpr distinguishes,
    apart.mpr (by decide), selects.imp fun _ _ one => one.mpr distinguishes⟩

/-- A method with a choice of two options whose spellings have one enumerator, which is also that
    of a parameter. -/
def ambiguousMethod : Method where
  ident := ⟨"blur"⟩
  options := [
    { ident := ⟨"manual"⟩
      items := [.node (.parameter
        { argument := { ident := ⟨"manual"⟩, nativeType := "int", wrapperType := "Int32" } })] },
    { ident := ⟨"Manual"⟩ }]

/-- The package of that method. -/
def ambiguousPackage : Package where
  ident := ⟨"vision"⟩
  version := ⟨1, 0, 0⟩
  methods := [ambiguousMethod]

/-- Labels may be ambiguous: a valid package may have options with one enumerator, which may be
    that of an id as well. -/
theorem ambiguous_labels_accepted :
    ¬ ∀ (config : Config) (package : Package) (method : Method) (text : String),
      Validation.problems package = [] → method ∈ package.methods →
        1 < method.options.length → renderMethod config package method = .ok text →
          ∃ ids steps, DataIds.collect method = .ok ids ∧
            text = Document.render config.indentWidth steps ∧
            HasEnumeration "DataId" ids.enumerators steps ∧
            HasEnumeration "DataFlowId" method.optionEnumerators steps ∧
            (method.optionEnumerators.Nodup ∨
              ∀ enumerator ∈ method.optionEnumerators, enumerator ∉ ids.enumerators) := by
  intro unambiguous
  have valid : Validation.problems ambiguousPackage = [] := by decide
  obtain ⟨text, rendered⟩ : ∃ text, renderMethod .standard ambiguousPackage ambiguousMethod =
      .ok text := ⟨_, rfl⟩
  obtain ⟨ids, -, collected, -, -, -, either⟩ := unambiguous .standard _ _ text valid
    (by simp [ambiguousPackage]) (by decide) rendered
  rcases either with distinct | apart
  · exact absurd distinct (by decide)
  · refine (DataIds.enumerators_apart_iff ?_ collected).mp apart ?_
    · decide
    · decide

end Emission
end OperatorGen
