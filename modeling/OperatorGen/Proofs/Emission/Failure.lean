import OperatorGen.Proofs.Emission.Visitors

/-!
# Packages that cannot be emitted

Emission fails for three reasons: a method with a choice of options declares the data flow
itself, an option has a second output, or a ref input has no target. The errors are related
to packages here without the emission (`MethodError`, `OptionError`, `Raises`), and the
emission is shown to give exactly these errors, in the order of methods, options and
arguments. A body that is being taken in knows of the arguments before it only whether
there was an output (`Body.Behind`).
-/
namespace OperatorGen

/-! ## Reasons to fail -/

/-- The method has several options and an argument, no constant, with the spelling that is
    reserved for the choice between them. -/
def DeclaresDataFlow (method : Method) : Prop :=
  1 < method.options.length ∧
    ∃ option ∈ method.options, ∃ node ∈ option.arguments,
      node.hasId = true ∧ node.ident = dataFlow

instance : DecidablePred DeclaresDataFlow := fun _ => inferInstanceAs (Decidable (_ ∧ _))

/-- The option has more than one output. -/
def SeveralOutputs (option : MethodOption) : Prop :=
  1 < option.arguments.countP Node.isOutput

/-- Some of the nodes is a ref input whose target is no argument of the option. -/
def Dangles (option : MethodOption) (nodes : List Node) : Prop :=
  ∃ argument target, Node.refInput argument target ∈ nodes ∧
    option.resolve? argument target = none

/-- The option has a ref input without a target. -/
def Dangling (option : MethodOption) : Prop :=
  Dangles option option.arguments

/-- No file can be rendered for the method. -/
def Unrenderable (method : Method) : Prop :=
  DeclaresDataFlow method ∨
    ∃ option ∈ method.options, SeveralOutputs option ∨ Dangling option

/-! ## The errors that are raised -/

/-- The error that an argument of an option raises behind other arguments. -/
inductive Raises (option : MethodOption) (before : List Node) : Node → EmitError → Prop
  | secondOutput {argument first : Argument} (earlier : Node.output first ∈ before) :
    Raises option before (.output argument)
      (.secondOutput option.ident argument.ident first.ident)
  | unknownReference {argument : Argument} {target : Ident}
      (unresolved : option.resolve? argument target = none) :
    Raises option before (.refInput argument target)
      (.unknownReference option.ident argument.ident target)

/-- The error of the first argument that raises one, in a list of arguments behind others. -/
inductive FirstRaised (option : MethodOption) : List Node → List Node → EmitError → Prop
  | here {before rest : List Node} {node : Node} {error : EmitError}
      (raised : Raises option before node error) : FirstRaised option before (node :: rest) error
  | later {before rest : List Node} {node : Node} {error : EmitError}
      (passed : ∀ other, ¬ Raises option before node other)
      (next : FirstRaised option (before ++ [node]) rest error) :
    FirstRaised option before (node :: rest) error

/-- The error of an option. -/
def OptionError (option : MethodOption) (error : EmitError) : Prop :=
  FirstRaised option [] option.arguments error

/-- The error of a method: that of the data flow, or else that of the first option with one. -/
inductive MethodError (method : Method) : EmitError → Prop
  | reserved (taken : DeclaresDataFlow method) :
    MethodError method (.reservedDataFlow method.ident)
  | option {error : EmitError} (free : ¬ DeclaresDataFlow method)
      (first : First OptionError method.options error) : MethodError method error

/-- The error of a package: that of the first method with one. -/
def PackageError (package : Package) (error : EmitError) : Prop :=
  First MethodError package.methods error

/-! ## When an error is raised -/

theorem Raises.exists_iff {option : MethodOption} {before : List Node} {node : Node} :
    (∃ error, Raises option before node error) ↔
      (node.isOutput = true ∧ 0 < before.countP Node.isOutput) ∨ Dangles option [node] := by
  constructor
  · rintro ⟨error, raised⟩
    cases raised with
    | secondOutput earlier => exact .inl ⟨rfl, List.countP_pos_iff.mpr ⟨_, earlier, rfl⟩⟩
    | unknownReference unresolved => exact .inr ⟨_, _, List.mem_singleton.mpr rfl, unresolved⟩
  · rintro (⟨output, earlier⟩ | ⟨argument, target, member, unresolved⟩)
    · obtain ⟨first, member, isOutput⟩ := List.countP_pos_iff.mp earlier
      cases node <;> simp only [Node.isOutput, Bool.false_eq_true] at output
      cases first <;> simp only [Node.isOutput, Bool.false_eq_true] at isOutput
      exact ⟨_, .secondOutput member⟩
    · obtain rfl := List.mem_singleton.mp member
      exact ⟨_, .unknownReference unresolved⟩

theorem FirstRaised.nil_iff {option : MethodOption} {before : List Node} {error : EmitError} :
    FirstRaised option before [] error ↔ False := by
  constructor
  · intro raised; cases raised
  · exact False.elim

theorem FirstRaised.cons_iff {option : MethodOption} {before rest : List Node} {node : Node}
    {error : EmitError} :
    FirstRaised option before (node :: rest) error ↔
      Raises option before node error ∨
        (∀ other, ¬ Raises option before node other) ∧
          FirstRaised option (before ++ [node]) rest error := by
  constructor
  · intro raised
    cases raised with
    | here raised => exact .inl raised
    | later passed next => exact .inr ⟨passed, next⟩
  · rintro (raised | ⟨passed, next⟩)
    · exact .here raised
    · exact .later passed next

theorem dangles_cons {option : MethodOption} {node : Node} {rest : List Node} :
    Dangles option (node :: rest) ↔ Dangles option [node] ∨ Dangles option rest := by
  simp only [Dangles, List.mem_cons, List.not_mem_nil, or_false, or_and_right, exists_or]

/-- A ref input that does not dangle has a target. -/
theorem exists_target {option : MethodOption} {argument : Argument} {target : Ident}
    (resolved : ¬ Dangles option [.refInput argument target]) :
    ∃ other, option.resolve? argument target = some other :=
  Option.ne_none_iff_exists'.mp fun missing =>
    resolved ⟨argument, target, List.mem_singleton.mpr rfl, missing⟩

/-- An error is raised as soon as there is a second output or a ref input without a target. -/
theorem FirstRaised.exists_iff {option : MethodOption} {before nodes : List Node}
    (single : before.countP Node.isOutput ≤ 1) :
    (∃ error, FirstRaised option before nodes error) ↔
      1 < (before ++ nodes).countP Node.isOutput ∨ Dangles option nodes := by
  induction nodes generalizing before with
  | nil =>
    simp only [FirstRaised.nil_iff, exists_false, List.append_nil, false_iff]
    rintro (several | ⟨argument, target, member, -⟩)
    · omega
    · cases member
  | cons node rest ih =>
    by_cases raised : ∃ error, Raises option before node error
    · -- This argument raises an error, which is one of the two reasons.
      have reason := Raises.exists_iff.mp raised
      obtain ⟨error, raised⟩ := raised
      refine ⟨fun _ => ?_, fun _ => ⟨error, .here raised⟩⟩
      rcases reason with ⟨output, earlier⟩ | dangles
      · left
        rw [List.countP_append, List.countP_cons_of_pos output]
        omega
      · exact .inr (dangles_cons.mpr (.inl dangles))
    · -- It raises none, so there is at most one output up to it as well.
      have passed : ∀ other, ¬ Raises option before node other := not_exists.mp raised
      rw [Raises.exists_iff, not_or] at raised
      obtain ⟨noSecond, resolved⟩ := raised
      have next : (before ++ [node]).countP Node.isOutput ≤ 1 := by
        rw [List.countP_append, List.countP_singleton]
        by_cases output : node.isOutput = true
        · have none : ¬ 0 < before.countP Node.isOutput := fun some => noSecond ⟨output, some⟩
          rw [if_pos output]
          omega
        · rw [if_neg output]
          exact single
      have rest := ih next
      rw [List.append_assoc, List.singleton_append] at rest
      rw [dangles_cons, or_iff_right resolved, ← rest]
      exact exists_congr fun error => by
        rw [FirstRaised.cons_iff, or_iff_right (passed error)]
        exact and_iff_right passed

/-- An option has an error if it has several outputs or a ref input without a target. -/
theorem OptionError.exists_iff {option : MethodOption} :
    (∃ error, OptionError option error) ↔ SeveralOutputs option ∨ Dangling option := by
  have none : ([] : List Node).countP Node.isOutput ≤ 1 := by simp
  exact FirstRaised.exists_iff none

/-- A method has an error exactly if no file can be rendered for it. -/
theorem MethodError.exists_iff {method : Method} :
    (∃ error, MethodError method error) ↔ Unrenderable method := by
  have options : (∃ error, First OptionError method.options error) ↔
      ∃ option ∈ method.options, SeveralOutputs option ∨ Dangling option := by
    simp only [First.exists_iff, OptionError.exists_iff]
  constructor
  · rintro ⟨error, failed⟩
    cases failed with
    | reserved taken => exact .inl taken
    | option free first => exact .inr (options.mp ⟨error, first⟩)
  · rintro (taken | offending)
    · exact ⟨_, .reserved taken⟩
    · by_cases taken : DeclaresDataFlow method
      · exact ⟨_, .reserved taken⟩
      · obtain ⟨error, first⟩ := options.mpr offending
        exact ⟨error, .option taken first⟩

/-- A package has an error exactly if some file of it cannot be rendered. -/
theorem PackageError.exists_iff {package : Package} :
    (∃ error, PackageError package error) ↔ ∃ method ∈ package.methods, Unrenderable method := by
  simp only [PackageError, First.exists_iff, MethodError.exists_iff]

/-! ## Bodies -/

namespace Body

/-- What a body knows of the arguments that it has taken in: the output among them. -/
def Behind (body : Body) (before : List Node) : Prop :=
  ∀ argument, body.result = some argument ↔ Node.output argument ∈ before

theorem behind_nil : Behind {} [] := by
  simp [Behind]

/-- An argument that is no output leaves the result as it is. -/
private theorem Behind.keep {body next : Body} {before : List Node} {node : Node}
    (behind : body.Behind before) (kept : next.result = body.result)
    (other : ∀ argument, node ≠ .output argument) : next.Behind (before ++ [node]) := by
  intro argument
  have differs : ¬ Node.output argument = node := fun same => other argument same.symm
  rw [kept, behind argument, List.mem_append, List.mem_singleton, or_iff_left differs]

/-- A body fails to take in an argument with the error that the argument raises. -/
theorem add_error_iff {option : MethodOption} {body : Body} {before : List Node} {node : Node}
    {error : EmitError} (behind : body.Behind before) :
    add option body node = .error error ↔ Raises option before node error := by
  constructor
  · intro failed
    cases node with
    | output argument =>
      simp only [add] at failed
      split at failed
      · next first known =>
        cases failed
        exact .secondOutput ((behind first).mp known)
      · cases failed
    | refInput argument target =>
      simp only [add] at failed
      split at failed
      · next unresolved =>
        cases failed
        exact .unknownReference unresolved
      · cases failed
    | _ => cases failed
  · intro raised
    cases raised with
    | secondOutput earlier => simp only [add, (behind _).mpr earlier]
    | unknownReference unresolved => simp only [add, unresolved]

theorem Behind.add {option : MethodOption} {body next : Body} {before : List Node} {node : Node}
    (behind : body.Behind before) (added : body.add option node = .ok next) :
    next.Behind (before ++ [node]) := by
  cases node with
  | output argument =>
    simp only [Body.add] at added
    split at added
    · cases added
    · next fresh =>
      cases added
      intro other
      have absent : ¬ Node.output other ∈ before := fun member => by
        have known := (behind other).mpr member
        rw [fresh] at known
        cases known
      rw [List.mem_append, or_iff_right absent, List.mem_singleton, Node.output.injEq]
      simp only [addFragments, addSend, Option.some.injEq, eq_comm]
  | refInput argument target =>
    simp only [Body.add] at added
    split at added
    · cases added
    · cases added
      exact behind.keep rfl nofun
  | _ =>
    cases added
    exact behind.keep rfl nofun

/-- A body fails to take in arguments with the error of the first that raises one. -/
theorem addAll_error_iff {option : MethodOption} {body : Body} {before nodes : List Node}
    {error : EmitError} (behind : body.Behind before) :
    addAll option body nodes = .error error ↔ FirstRaised option before nodes error := by
  induction nodes generalizing body before with
  | nil => simp [addAll, FirstRaised.nil_iff]
  | cons node rest ih =>
    rw [addAll, bind_error_iff, add_error_iff behind, FirstRaised.cons_iff]
    refine or_congr_right ?_
    constructor
    · rintro ⟨next, added, failed⟩
      refine ⟨fun other raised => ?_, (ih (behind.add added)).mp failed⟩
      rw [← add_error_iff behind, added] at raised
      cases raised
    · rintro ⟨passed, first⟩
      rcases ok_or_error (add option body node) with ⟨next, added⟩ | ⟨other, failed⟩
      · exact ⟨next, added, (ih (behind.add added)).mpr first⟩
      · exact absurd ((add_error_iff behind).mp failed) (passed other)

theorem ofOption_error_iff {function : String} {option : MethodOption} {error : EmitError} :
    ofOption function option = .error error ↔ OptionError option error := by
  rw [ofOption, bind_error_iff, addAll_error_iff behind_nil, OptionError]
  simp

/-- An option with a body has no second output, and none of its ref inputs dangles. -/
theorem sound_of_ofOption {function : String} {option : MethodOption} {statements : List Statement}
    (made : ofOption function option = .ok statements) :
    option.arguments.countP Node.isOutput ≤ 1 ∧ ¬ Dangles option option.arguments := by
  have passed : ¬ ∃ error, OptionError option error := by
    rintro ⟨error, failed⟩
    rw [← @ofOption_error_iff function, made] at failed
    cases failed
  rw [OptionError.exists_iff, not_or] at passed
  exact ⟨Nat.le_of_not_lt passed.1, passed.2⟩

end Body

/-! ## Methods and packages -/

namespace Emission

theorem declaresDataFlow_iff {method : Method} :
    DeclaresDataFlow method ↔
      1 < method.options.length ∧ dataFlow ∈ (DataIds.declared method).ids := by
  rw [DeclaresDataFlow, DataIds.mem_ids_declared]

theorem parts_error_iff {config : Config} {method : Method} {error : EmitError} :
    parts config method = .error error ↔ MethodError method error := by
  have options : ∀ ids, DataIds.collect method = .ok ids →
      (Setup.tryForEachOption ids method (optionCode config method) = .error error ↔
        First OptionError method.options error) := by
    intro ids collected
    rw [Setup.tryForEachOption_error_iff (DataIds.hasDataFlow_or_single collected)]
    exact First.congr fun option _ e => by
      rw [optionCode, map_error_iff, Body.ofOption_error_iff]
  rw [parts, bind_error_iff, DataIds.collect_error_iff]
  constructor
  · rintro (⟨several, taken, rfl⟩ | ⟨ids, collected, failed⟩)
    · exact .reserved (declaresDataFlow_iff.mpr ⟨several, taken⟩)
    · rw [bind_error_iff] at failed
      rcases failed with failed | ⟨executed, -, impossible⟩
      · refine .option (fun taken => ?_) ((options ids collected).mp failed)
        obtain ⟨several, declared⟩ := declaresDataFlow_iff.mp taken
        have rejected := DataIds.collect_error_iff.mpr ⟨several, declared, rfl⟩
        rw [collected] at rejected
        cases rejected
      · cases impossible
  · intro failed
    cases failed with
    | reserved taken =>
      obtain ⟨several, declared⟩ := declaresDataFlow_iff.mp taken
      exact .inl ⟨several, declared, rfl⟩
    | option free first =>
      rcases ok_or_error (DataIds.collect method) with ⟨ids, collected⟩ | ⟨reason, rejected⟩
      · exact .inr ⟨ids, collected, bind_error_iff.mpr (.inl ((options ids collected).mpr first))⟩
      · obtain ⟨several, declared, -⟩ := DataIds.collect_error_iff.mp rejected
        exact absurd (declaresDataFlow_iff.mpr ⟨several, declared⟩) free

theorem renderMethod_error_iff {config : Config} {package : Package} {method : Method}
    {error : EmitError} :
    renderMethod config package method = .error error ↔ MethodError method error := by
  rw [renderMethod, bind_error_iff, parts_error_iff]
  simp

theorem renderMethods_error_iff {ε : Type} {package : Package}
    {render : Method → Except ε String} {methods : List Method} {error : ε} :
    renderMethods package render methods = .error error ↔
      First (fun method e => render method = .error e) methods error := by
  induction methods with
  | nil => simp [renderMethods]
  | cons method rest ih =>
    simp only [renderMethods, bind_error_iff, First.cons_iff, ih]
    rcases ok_or_error (render method) with ⟨contents, done⟩ | ⟨reason, failed⟩
    · simp [done]
    · simp [failed]

theorem renderPackage_error_iff (config : Config) {package : Package} {error : EmitError} :
    renderPackage config package = .error error ↔ PackageError package error := by
  rw [renderPackage, renderMethods_error_iff]
  exact First.congr fun method _ e => renderMethod_error_iff

/-- A package cannot be rendered exactly if one of its methods cannot. The error is that of
    the first such method: that of the data flow, or else that of the first option with an
    error, at the first argument that raises one. Emission by visitors fails with the same
    error, and never with that of an element without a handler. -/
theorem renderPackage_failure (config : Config) (package : Package) :
    ((∃ error, renderPackage config package = .error error) ↔
        ∃ method ∈ package.methods, Unrenderable method) ∧
      (∀ error, renderPackage config package = .error error ↔ PackageError package error) ∧
      (∀ error, Visiting.renderPackage config package = .error error ↔
        ∃ emitted, error = .emit emitted ∧ PackageError package emitted) := by
  refine ⟨?_, fun error => renderPackage_error_iff config, fun error => ?_⟩
  · simp only [renderPackage_error_iff, PackageError.exists_iff]
  · rw [Visiting.renderPackage_eq]
    simp only [← renderPackage_error_iff config]
    cases renderPackage config package with
    | ok files => simp [Except.mapError]
    | error reason => simp [Except.mapError, eq_comm]

end Emission
end OperatorGen
