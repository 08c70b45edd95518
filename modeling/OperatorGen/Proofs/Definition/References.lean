import OperatorGen.Definition.Package

/-!
# What a ref input refers to

A ref input names its target, and the arguments of its option are searched for it in order. The
search skips the ref input itself, and with it every copy, for a copy cannot be told from it. So
a ref input refers to the first argument with the spelling of its target that is no copy of it
(`MethodOption.RefersTo`), and further copies in the option, between its items or inside its
compounds (`Item.Padded`), make no difference (`MethodOption.resolve_refersTo`).
-/
namespace OperatorGen

/-! ## Lists with further copies -/

/-- A list, and the list with further copies of an element at any places. -/
inductive Padded {α : Type} (copy : α) : List α → List α → Prop
  | nil : Padded copy [] []
  | keep {x : α} {list padded : List α} (rest : Padded copy list padded) :
    Padded copy (x :: list) (x :: padded)
  | insert {list padded : List α} (rest : Padded copy list padded) :
    Padded copy list (copy :: padded)

namespace Padded

variable {α : Type} {copy : α} {list padded first second : List α}

theorem append {padded' : List α} (front : Padded copy first padded)
    (back : Padded copy second padded') : Padded copy (first ++ second) (padded ++ padded') := by
  induction front with
  | nil => exact back
  | keep _ ih => exact .keep ih
  | insert _ ih => exact .insert ih

/-- A search that skips an element does not come across its copies. -/
theorem find?_eq (pads : Padded copy list padded) {p : α → Bool} (skipped : p copy = false) :
    padded.find? p = list.find? p := by
  induction pads with
  | nil => rfl
  | @keep x list padded _ ih => cases found : p x <;> simp [found, ih]
  | insert _ ih => simp [skipped, ih]

end Padded

/-- Items, and the items with further copies of a node at any places between them and inside
    the compounds among them. -/
inductive Item.Padded (copy : Node) : List Item → List Item → Prop
  | nil : Item.Padded copy [] []
  | insert {items padded : List Item} (rest : Item.Padded copy items padded) :
    Item.Padded copy items (.node copy :: padded)
  | node {n : Node} {items padded : List Item} (rest : Item.Padded copy items padded) :
    Item.Padded copy (.node n :: items) (.node n :: padded)
  | compound {constructor : Constructor} {constituents more : List Node} {items padded : List Item}
      (inside : OperatorGen.Padded copy constituents more) (rest : Item.Padded copy items padded) :
    Item.Padded copy (.compound ⟨constructor, constituents⟩ :: items)
      (.compound ⟨constructor, more⟩ :: padded)

/-- Copies among items are copies among the arguments. -/
theorem Item.Padded.arguments {copy : Node} {items padded : List Item}
    (pads : Item.Padded copy items padded) :
    OperatorGen.Padded copy (items.flatMap Item.arguments) (padded.flatMap Item.arguments) := by
  induction pads with
  | nil => exact .nil
  | insert _ ih => exact .insert ih
  | node _ ih => exact .keep ih
  | compound inside _ ih => exact inside.append ih

/-! ## References -/

namespace MethodOption

variable {option : MethodOption} {argument : Argument} {target : Ident} {node : Node}

/-- A node is the first argument of an option with the spelling of a target, but for copies of
    the ref input with that target. -/
def RefersTo (option : MethodOption) (argument : Argument) (target : Ident) (node : Node) : Prop :=
  ∃ before after, option.arguments = before ++ node :: after ∧
    node.ident = target ∧ node ≠ .refInput argument target ∧
      ∀ earlier ∈ before, earlier.ident = target → earlier = .refInput argument target

theorem resolve?_eq_some_iff :
    option.resolve? argument target = some node ↔ option.RefersTo argument target node := by
  have skipped (earlier : Node) :
      (!(decide (earlier.ident = target) && earlier != .refInput argument target)) = true ↔
        (earlier.ident = target → earlier = .refInput argument target) := by
    simp [Decidable.imp_iff_not_or]
  rw [resolve?, List.find?_eq_some_iff_append, Bool.and_eq_true, decide_eq_true_iff, bne_iff_ne]
  simp only [skipped, RefersTo]
  constructor
  · rintro ⟨⟨spelled, own⟩, before, after, arguments, skips⟩
    exact ⟨before, after, arguments, spelled, own, skips⟩
  · rintro ⟨before, after, arguments, spelled, own, skips⟩
    exact ⟨⟨spelled, own⟩, before, after, arguments, skips⟩

theorem resolve?_eq_none_iff :
    option.resolve? argument target = none ↔
      ∀ node ∈ option.arguments, node.ident = target → node = .refInput argument target := by
  simp [resolve?, List.find?_eq_none]

/-- A ref input whose spelling is not that of its target is not come across on the way. -/
theorem resolve?_eq_find? (apart : target ≠ argument.ident) :
    option.resolve? argument target = option.find? target := by
  have same :
      (fun node : Node => decide (node.ident = target) && node != .refInput argument target) =
      fun node => decide (node.ident = target) := by
    funext node
    by_cases spelled : node.ident = target
    · have other : node ≠ .refInput argument target := by
        rintro rfl
        exact apart spelled.symm
      simp [spelled, other]
    · simp [spelled]
  rw [resolve?, same, find?]

theorem resolve?_padded {items : List Item}
    (pads : Item.Padded (.refInput argument target) option.items items) :
    { option with items }.resolve? argument target = option.resolve? argument target :=
  pads.arguments.find?_eq (by simp)

/-- A ref input refers to the first argument with the spelling of its target that is no copy of
    it, if there is one; to the first argument with that spelling, if the ref input has another
    one; and to the same as before when further copies of it are put into the option. -/
theorem resolve_refersTo (option : MethodOption) (argument : Argument) (target : Ident) :
    (∀ node, option.resolve? argument target = some node ↔
      option.RefersTo argument target node) ∧
    option.resolve? argument target ≠ some (.refInput argument target) ∧
    (option.resolve? argument target = none ↔
      ∀ node ∈ option.arguments, node.ident = target → node = .refInput argument target) ∧
    (target ≠ argument.ident → option.resolve? argument target = option.find? target) ∧
    ∀ items, Item.Padded (.refInput argument target) option.items items →
      { option with items }.resolve? argument target = option.resolve? argument target := by
  refine ⟨fun _ => resolve?_eq_some_iff, fun itself => ?_, resolve?_eq_none_iff,
    resolve?_eq_find?, fun _ => resolve?_padded⟩
  obtain ⟨-, -, -, -, other, -⟩ := resolve?_eq_some_iff.mp itself
  exact other rfl

/-- An image that the operator hands out. -/
def destination : Argument where
  ident := ⟨"dst"⟩
  nativeType := "cv::Mat"

def width : Node :=
  .constant ⟨⟨"w"⟩, "int", "3"⟩

/-- An option whose output is the target of a ref input with the same spelling. -/
def outputOption : MethodOption where
  ident := ⟨"manual"⟩
  items := [.node (.refInput destination ⟨"dst"⟩), .compound ⟨.call "cv::Scalar", [width]⟩,
    .node (.output destination)]

/-- The ref input that is spelled like its target refers to the output, and still does behind
    copies in front, inside the compound and between the items; a ref input to the constant
    refers to what is found by its spelling. -/
theorem outputOption_resolved :
    outputOption.resolve? destination ⟨"dst"⟩ = some (.output destination) ∧
      { outputOption with items := [.node (.refInput destination ⟨"dst"⟩),
        .node (.refInput destination ⟨"dst"⟩),
        .compound ⟨.call "cv::Scalar", [.refInput destination ⟨"dst"⟩, width]⟩,
        .node (.refInput destination ⟨"dst"⟩), .node (.output destination)]
      }.resolve? destination ⟨"dst"⟩ = some (.output destination) ∧
      outputOption.resolve? destination ⟨"w"⟩ = outputOption.find? ⟨"w"⟩ := by
  obtain ⟨found, -, -, -, padded⟩ := resolve_refersTo outputOption destination ⟨"dst"⟩
  obtain ⟨-, -, -, apart, -⟩ := resolve_refersTo outputOption destination ⟨"w"⟩
  have output : outputOption.resolve? destination ⟨"dst"⟩ = some (.output destination) :=
    (found _).mpr ⟨[.refInput destination ⟨"dst"⟩, width], [], rfl, rfl, by decide, by decide⟩
  refine ⟨output, ?_, apart (by decide)⟩
  rw [padded _ (.insert (.node (.compound (.insert (.keep .nil)) (.insert (.node .nil))))), output]

end MethodOption
end OperatorGen
