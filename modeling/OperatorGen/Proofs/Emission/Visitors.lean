import OperatorGen.Emission.File
import OperatorGen.Error
import OperatorGen.Proofs.Emission.DataIds
import OperatorGen.Proofs.Emission.Options

/-!
# Emission by visitors

The sections of a file are written while visitors walk over a method or over its parameters.
A visitor handles some kinds of elements only; the visit of any other argument or compound
is an error of its own (`Error.unhandled`). Here the emission is put together from such
visitors, in the order of the sections, and it is shown to give the same files and the same
errors as `Emission.renderPackage` (`Visiting.renderPackage_eq`): the visitors never meet an
element that they do not handle, though the one for the setter handles parameters only.
-/
namespace OperatorGen

/-- How a visitor takes in the elements that it handles. -/
structure Visitor (σ : Type) where
  node? : Node → Option (σ → Except EmitError σ)
  compound? : Compound → Option (σ → Except EmitError σ)

namespace Visitor

variable {σ : Type}

/-- Takes in an element, unless nothing is there to handle it. -/
def handle (unhandled : Unhandled) :
    Option (σ → Except EmitError σ) → StateT σ (Except Error) Unit
  | some take => fun state => ((take state).mapError .emit).map fun after => ((), after)
  | none => fun _ => .error (.unhandled unhandled)

/-- Visits an element; one that holds methods, options or items is passed by. -/
def visit (visitor : Visitor σ) : Element → StateT σ (Except Error) Unit
  | .node n => handle ⟨n.kind, n.ident.text⟩ (visitor.node? n)
  | .compound c => handle ⟨.compound, c.label⟩ (visitor.compound? c)
  | .package _ | .method _ | .option _ => pure ()

/-- The state after a walk. -/
def after (start : σ) (walk : StateT σ (Except Error) Unit) : Except Error σ :=
  (walk.run start).map Prod.snd

/-- Visits nodes in order, and nothing else. -/
def visitNodes (visitor : Visitor σ) (start : σ) (nodes : List Node) : Except Error σ :=
  after start (Walk.visitAll visitor.visit (nodes.map .node))

/-- A visitor that takes in every node, and has nothing to do for a compound. -/
structure Takes (visitor : Visitor σ) (take : Node → σ → Except EmitError σ) : Prop where
  node (n : Node) : visitor.node? n = some (take n)
  compound (c : Compound) : visitor.compound? c = some .ok

/-- Nodes taken in one after another. -/
def takeAll (take : Node → σ → Except EmitError σ) : σ → List Node → Except EmitError σ
  | state, [] => .ok state
  | state, node :: rest => do
    let next ← take node state
    takeAll take next rest

theorem takeAll_append (take : Node → σ → Except EmitError σ) (state : σ)
    (first second : List Node) :
    takeAll take state (first ++ second) =
      takeAll take state first >>= fun between => takeAll take between second := by
  induction first generalizing state with
  | nil => rfl
  | cons node rest ih =>
    simp only [List.cons_append, takeAll, ih]
    cases take node state <;> rfl

theorem after_pure (start : σ) : after start (pure ()) = .ok start := rfl

theorem after_bind (start : σ) (first : StateT σ (Except Error) Unit)
    (second : Unit → StateT σ (Except Error) Unit) :
    after start (first >>= second) =
      after start first >>= fun between => after between (second ()) := by
  simp only [after, StateT.run_bind]
  cases first.run start <;> rfl

/-- The visit of a node that a visitor handles. -/
theorem after_visit_node {visitor : Visitor σ} {node : Node} {take : σ → Except EmitError σ}
    (handled : visitor.node? node = some take) (start : σ) :
    after start (visitor.visit (.node node)) = (take start).mapError .emit := by
  simp only [visit, handled, handle, after, StateT.run]
  cases take start <;> rfl

theorem after_visit_compound {visitor : Visitor σ} {compound : Compound}
    {take : σ → Except EmitError σ} (handled : visitor.compound? compound = some take)
    (start : σ) : after start (visitor.visit (.compound compound)) =
      (take start).mapError .emit := by
  simp only [visit, handled, handle, after, StateT.run]
  cases take start <;> rfl

/-- A visitor that handles all of some nodes takes them in one after another. -/
theorem visitNodes_eq {visitor : Visitor σ} {take : Node → σ → Except EmitError σ}
    {nodes : List Node} (handled : ∀ node ∈ nodes, visitor.node? node = some (take node))
    (start : σ) :
    visitor.visitNodes start nodes = (takeAll take start nodes).mapError .emit := by
  induction nodes generalizing start with
  | nil => rfl
  | cons node rest ih =>
    have first := after_visit_node (handled node (by simp)) start
    have others := fun between => ih (fun n member => handled n (by simp [member])) between
    simp only [visitNodes] at others
    simp only [visitNodes, List.map_cons, Walk.visitAll, after_bind, first, others, takeAll,
      mapError_bind]

/-- Such a visitor takes in the nodes of items in order, those of compounds included. -/
theorem after_items {visitor : Visitor σ} {take : Node → σ → Except EmitError σ}
    (takes : visitor.Takes take) (items : List Item) (start : σ) :
    after start (Walk.items visitor.visit items) =
      (takeAll take start (items.flatMap Item.arguments)).mapError .emit := by
  induction items generalizing start with
  | nil => rfl
  | cons item rest ih =>
    cases item with
    | node n =>
      simp only [Walk.items, after_bind, after_visit_node (takes.node n), ih,
        List.flatMap_cons, Item.arguments, List.singleton_append, takeAll, mapError_bind]
    | compound c =>
      have inside : ∀ between, visitor.visitNodes between c.arguments =
          (takeAll take between c.arguments).mapError .emit :=
        visitNodes_eq fun n _ => takes.node n
      simp only [visitNodes] at inside
      simp only [Walk.items, after_bind, after_visit_compound (takes.compound c), ih, inside,
        List.flatMap_cons, Item.arguments, takeAll_append, mapError_bind]
      rfl

/-- Such a visitor takes in the arguments of an option. -/
theorem after_option {visitor : Visitor σ} {take : Node → σ → Except EmitError σ}
    (takes : visitor.Takes take) (option : MethodOption) (start : σ) :
    after start (Walk.option visitor.visit option) =
      (takeAll take start option.arguments).mapError .emit := by
  simp only [Walk.option, after_bind, after_items takes, MethodOption.arguments]
  rfl

/-- Such a visitor takes in the arguments of all options of a method. -/
theorem after_method {visitor : Visitor σ} {take : Node → σ → Except EmitError σ}
    (takes : visitor.Takes take) (method : Method) (start : σ) :
    after start (Walk.method visitor.visit method) =
      (takeAll take start method.arguments).mapError .emit := by
  have options : ∀ (options : List MethodOption) (start : σ),
      after start (Walk.options visitor.visit options) =
        (takeAll take start (options.flatMap MethodOption.arguments)).mapError .emit := by
    intro options
    induction options with
    | nil => intro start; rfl
    | cons option rest ih =>
      intro start
      simp only [Walk.options, after_bind, after_option takes, ih, List.flatMap_cons,
        takeAll_append, mapError_bind]
  simp only [Walk.method, after_bind, options, Method.arguments]
  rfl

/-! ## Visitors that only write -/

/-- Writes steps behind those that are there. -/
def write {τ : Type} (more : List τ) (written : List τ) : Except EmitError (List τ) :=
  .ok (written ++ more)

@[simp] theorem write_nil {τ : Type} : write ([] : List τ) = .ok := by
  funext written
  simp [write]

theorem takeAll_write {τ : Type} (more : Node → List τ) (written : List τ) (nodes : List Node) :
    takeAll (fun node => write (more node)) written nodes =
      .ok (written ++ nodes.flatMap more) := by
  induction nodes generalizing written with
  | nil => simp [takeAll]
  | cons node rest ih =>
    calc takeAll (fun node => write (more node)) written (node :: rest)
        = takeAll (fun node => write (more node)) (written ++ more node) rest := rfl
      _ = .ok (written ++ (node :: rest).flatMap more) := by simp [ih, List.append_assoc]

end Visitor

namespace Emission.Visiting

open Visitor

/-! ## The visitors of a file -/

/-- Collects the ids; a constant has none. -/
def collector : Visitor DataIds where
  node?
    | .constant _ => some .ok
    | node => some fun seen => .ok (seen.add node)
  compound? _ := some .ok

/-- Writes the case that sets a parameter. It handles nothing but parameters. -/
def setterCases (config : Config) : Visitor (List Step) where
  node?
    | .parameter p =>
      some (write (Access.setCase config p
        (if p.argument.wrapperType = "Matrix" then some "checkMatrixValue" else none)))
    | .numeric n => some (write (Access.setCase config n.parameter (some "checkNumericValue")))
    | .enumeration e => some (write (Access.setCase config e.parameter (some "checkEnumValue")))
    | _ => none
  compound? _ := none

/-- Writes steps for a parameter if it is set when asked for. -/
def writeIf (isInit : Bool) (parameter : Parameter) (steps : List Step) :
    List Step → Except EmitError (List Step) :=
  write (if parameter.isInit = isInit then steps else [])

/-- Writes the descriptions of the parameters to set before the initialization, or after it. -/
def parameterSetup (config : Config) (isInit : Bool) : Visitor (List Step) where
  node?
    | .input _ _ | .output _ | .refInput _ _ | .allocation _ | .constant _ => some .ok
    | .parameter p => some (writeIf isInit p (Setup.describePlain config p))
    | .numeric n => some (writeIf isInit n.parameter (Setup.describeNumeric config n))
    | .enumeration e => some (writeIf isInit e.parameter (Setup.describeEnum config e))
  compound? _ := some .ok

/-- The description of an argument that belongs to a side, if that side is described. -/
def describeOn (config : Config) (described belongs : Setup.Side) (argument : Argument) :
    List Step :=
  if belongs = described then
    (Setup.connect described argument).map (Setup.ConnectorStatement.step config)
  else []

/-- Writes the descriptions of the arguments on a side. -/
def connectorSetup (config : Config) (side : Setup.Side) : Visitor (List Step) where
  node?
    | .input argument _ => some (write (describeOn config side .inputs argument))
    | .output argument => some (write (describeOn config side .outputs argument))
    | .allocation argument => some (write (describeOn config side .outputs argument))
    | .refInput argument _ =>
      some (write (describeOn config side .inputs argument ++
        describeOn config side .outputs argument))
    | .constant _ | .parameter _ | .numeric _ | .enumeration _ => some .ok
  compound? _ := some .ok

/-- Takes in the arguments of an option. -/
def declarations (option : MethodOption) : Visitor Body where
  node? node := some fun body => Body.add option body node
  compound? _ := some .ok

/-- Writes the argument list of the call; its items are visited, and nothing inside them. -/
def callArguments (config : Config) : Visitor (List String) where
  node?
    | .output _ => some .ok
    | node => some (write [config.dataName node.ident])
  compound? compound := some (write [compound.expression config])

/-! ## The walks of a file -/

/-- The ids of a method. -/
def collect (method : Method) : Except Error DataIds := do
  let declared ← after {} (Walk.method collector.visit method)
  (DataIds.complete method declared).mapError .emit

/-- What a visitor writes on a walk over an option. -/
def written (visitor : Visitor (List Step)) (option : MethodOption) : Except Error (List Step) :=
  after [] (Walk.option visitor.visit option)

/-- The code for an option. -/
def optionCode (config : Config) (method : Method) (option : MethodOption) :
    Except Error (List Step) := do
  let body ← after {} (Walk.option (declarations option).visit option)
  let arguments ← after []
    (Walk.visitAll (callArguments config).visit (option.items.map Item.element))
  .ok (Body.code config body.opening ++
    [.line (Body.resultDeclaration config body.result ++
      Body.callExpression method.nativeFunction arguments)] ++
    Body.code config body.closing)

/-- The parts of the file of a method, in the order in which the file is written. -/
def parts (config : Config) (method : Method) : Except Error Parts := do
  let ids ← collect method
  let setCases ← (setterCases config).visitNodes [] ids.parameters
  let initParameters ← (parameterSetup config true).visitNodes [] ids.parameters
  let parameters ← Setup.tryForEachOption ids method (written (parameterSetup config false))
  let inputs ← Setup.tryForEachOption ids method (written (connectorSetup config .inputs))
  let outputs ← Setup.tryForEachOption ids method (written (connectorSetup config .outputs))
  let executed ← Setup.tryForEachOption ids method (optionCode config method)
  .ok { ids, setCases, initParameters, parameters, inputs, outputs, executed }

/-- The source file of a method. -/
def renderMethod (config : Config) (package : Package) (method : Method) :
    Except Error String := do
  let parts ← parts config method
  .ok (Document.render config.indentWidth (fileSteps config package method parts))

/-- The files of a package, one for each method. -/
def renderPackage (config : Config) (package : Package) : Except Error (List File) :=
  renderMethods package (renderMethod config package) package.methods

/-! ## Every element that is visited is handled -/

theorem collector_takes : collector.Takes fun node seen => .ok (seen.add node) where
  node n := by cases n <;> rfl
  compound _ := rfl

theorem parameterSetup_takes (config : Config) (isInit : Bool) :
    (parameterSetup config isInit).Takes
      fun node => write (Setup.describeNode config isInit node) where
  node n := by
    cases n <;> simp [parameterSetup, writeIf, Setup.describeNode, Node.parameter?]
  compound _ := rfl

theorem connectorSetup_takes (config : Config) (side : Setup.Side) :
    (connectorSetup config side).Takes fun node =>
      write ((Setup.connectNode side node).map (Setup.ConnectorStatement.step config)) where
  node n := by
    cases n <;> cases side <;>
      simp [connectorSetup, describeOn, Setup.connectNode, Setup.isOn, Node.argument?]
  compound _ := rfl

theorem declarations_takes (option : MethodOption) :
    (declarations option).Takes fun node body => Body.add option body node where
  node _ := rfl
  compound _ := rfl

/-- A node that is a parameter has a case in the setter, and so a handler. -/
theorem setterCases_node (config : Config) {node : Node} (parameter : node.isParameter = true) :
    (setterCases config).node? node = some (write (Access.setNodeCase config node)) := by
  cases node <;> simp [Node.isParameter, Node.parameter?] at parameter <;> rfl

/-! ## The same parts -/

theorem takeAll_add (seen : DataIds) (nodes : List Node) :
    takeAll (fun node seen => .ok (seen.add node)) seen nodes =
      .ok (nodes.foldl DataIds.add seen) := by
  induction nodes generalizing seen with
  | nil => rfl
  | cons node rest ih => exact ih (seen.add node)

theorem collect_eq (method : Method) :
    collect method = (DataIds.collect method).mapError .emit := by
  simp only [collect, after_method collector_takes, takeAll_add]
  rfl

theorem written_eq {visitor : Visitor (List Step)} {steps : Node → List Step}
    (takes : visitor.Takes fun node => write (steps node)) (option : MethodOption) :
    written visitor option = .ok (option.arguments.flatMap steps) := by
  simp only [written, after_option takes, takeAll_write, List.nil_append]
  rfl

theorem takeAll_addBody (option : MethodOption) (body : Body) (nodes : List Node) :
    takeAll (fun node body => Body.add option body node) body nodes =
      Body.addAll option body nodes := by
  induction nodes generalizing body with
  | nil => rfl
  | cons node rest ih => simp only [takeAll, Body.addAll, ih]

theorem after_callArguments (config : Config) (items : List Item) (start : List String) :
    after start (Walk.visitAll (callArguments config).visit (items.map Item.element)) =
      .ok (start ++ Body.callArguments config items) := by
  induction items generalizing start with
  | nil => simp [Body.callArguments, Walk.visitAll, after_pure]
  | cons item rest ih =>
    have first : after start ((callArguments config).visit item.element) =
        .ok (start ++ (Body.callArgument? config item).toList) := by
      rcases item with node | compound
      · cases node <;>
          simp [Item.element, visit, callArguments, handle, after, write, Body.callArgument?,
            StateT.run, Except.mapError, Except.map]
      · rfl
    simp only [List.map_cons, Walk.visitAll, after_bind, first]
    show after _ _ = _
    rw [ih]
    cases given : Body.callArgument? config item <;> simp [Body.callArguments, given]

theorem optionCode_eq (config : Config) (method : Method) (option : MethodOption) :
    optionCode config method option =
      (Emission.optionCode config method option).mapError .emit := by
  simp only [optionCode, after_option (declarations_takes option), takeAll_addBody,
    after_callArguments, Emission.optionCode, Body.ofOption]
  cases Body.addAll option {} option.arguments with
  | error reason => rfl
  | ok body => simp [Except.mapError, bind, Except.bind, Except.map, Body.statements, Body.code,
      Body.Statement.steps]

theorem connectionSteps_eq (config : Config) (side : Setup.Side) (option : MethodOption) :
    (option.arguments.flatMap fun node =>
      (Setup.connectNode side node).map (Setup.ConnectorStatement.step config)) =
      Setup.connectionSteps config side option := by
  simp only [Setup.connectionSteps, Setup.connections, List.map_flatMap]

/-- A section whose visitor takes in every node is a plain section. -/
theorem tryForEachOption_written {visitor : Visitor (List Step)} {steps : Node → List Step}
    (takes : visitor.Takes fun node => write (steps node)) (ids : DataIds) (method : Method) :
    Setup.tryForEachOption ids method (written visitor) =
      .ok (Setup.forEachOption ids method fun option => option.arguments.flatMap steps) := by
  rw [show written visitor = fun option => .ok (option.arguments.flatMap steps) from
    funext (written_eq takes)]
  exact Setup.tryForEachOption_ok _

/-- The visitors leave the parts of the file behind, or the error of emission. -/
theorem parts_eq (config : Config) (method : Method) :
    parts config method = (Emission.parts config method).mapError .emit := by
  simp only [parts, collect_eq, Emission.parts, mapError_bind]
  cases collected : DataIds.collect method with
  | error reason => rfl
  | ok ids =>
    have setCases : (setterCases config).visitNodes [] ids.parameters =
        .ok (ids.parameters.flatMap (Access.setNodeCase config)) := by
      rw [visitNodes_eq (fun node member => setterCases_node config
        (DataIds.isParameter_of_mem_collect collected member)), takeAll_write]
      rfl
    have initial : (parameterSetup config true).visitNodes [] ids.parameters =
        .ok (Setup.initDescriptions config ids) := by
      rw [visitNodes_eq (fun node _ => (parameterSetup_takes config true).node node),
        takeAll_write]
      rfl
    have later : Setup.tryForEachOption ids method (written (parameterSetup config false)) =
        .ok (Setup.forEachOption ids method (Setup.laterDescriptions config)) :=
      tryForEachOption_written (parameterSetup_takes config false) ids method
    have connected : ∀ side,
        Setup.tryForEachOption ids method (written (connectorSetup config side)) =
          .ok (Setup.forEachOption ids method (Setup.connectionSteps config side)) := by
      intro side
      rw [tryForEachOption_written (connectorSetup_takes config side)]
      simp only [connectionSteps_eq]
    have executed : Setup.tryForEachOption ids method (optionCode config method) =
        (Setup.tryForEachOption ids method (Emission.optionCode config method)).mapError .emit := by
      rw [Setup.tryForEachOption_mapError]
      exact congrArg _ (funext (optionCode_eq config method))
    simp only [Except.mapError, bind, Except.bind, setCases, initial, later, connected, executed]

theorem renderMethod_eq (config : Config) (package : Package) (method : Method) :
    renderMethod config package method =
      (Emission.renderMethod config package method).mapError .emit := by
  simp only [renderMethod, parts_eq, Emission.renderMethod, mapError_bind]
  rfl

theorem renderMethods_mapError {ε δ : Type} (package : Package)
    (render : Method → Except ε String) (words : ε → δ) (methods : List Method) :
    (renderMethods package render methods).mapError words =
      renderMethods package (fun method => (render method).mapError words) methods := by
  induction methods with
  | nil => rfl
  | cons method rest ih => simp only [renderMethods, mapError_bind, ih]; rfl

/-- Emission by visitors gives the same files, or the same error, which is never that of an
    element without a handler. -/
theorem renderPackage_eq (config : Config) (package : Package) :
    renderPackage config package =
      (Emission.renderPackage config package).mapError .emit := by
  rw [renderPackage, Emission.renderPackage, renderMethods_mapError]
  congr 1
  funext method
  exact renderMethod_eq config package method

end Emission.Visiting
end OperatorGen
