import OperatorGen.Proofs.FirstError
import Mathlib.Data.List.Perm.Basic

/-!
# Computations up to their errors

Two computations may succeed alike and fail in different ways. What a computation gives if it
succeeds (`Except.toOption`) is put together from what its parts give, and a fold over a list
gives the same in any order if its steps commute.
-/
namespace OperatorGen

variable {α β ε δ ι : Type}

@[simp] theorem toOption_ok (a : α) : (Except.ok a : Except ε α).toOption = some a :=
  rfl

@[simp] theorem toOption_error (error : ε) : (Except.error error : Except ε α).toOption = none :=
  rfl

@[simp] theorem toOption_bind (x : Except ε α) (f : α → Except ε β) :
    (x >>= f).toOption = x.toOption.bind fun a => (f a).toOption := by
  cases x <;> rfl

@[simp] theorem toOption_map (x : Except ε α) (f : α → β) :
    (x.map f).toOption = x.toOption.map f := by
  cases x <;> rfl

@[simp] theorem toOption_mapError (x : Except ε α) (words : ε → δ) :
    (x.mapError words).toOption = x.toOption := by
  cases x <;> rfl

theorem toOption_eq_some_iff {x : Except ε α} {a : α} : x.toOption = some a ↔ x = .ok a := by
  cases x <;> simp

/-- Computations that give the same give it to the same computations. -/
theorem toOption_eq_iff {x y : Except ε α} :
    x.toOption = y.toOption ↔ ∀ a, x = .ok a ↔ y = .ok a := by
  simp only [← toOption_eq_some_iff]
  exact ⟨fun same a => by rw [same], Option.ext⟩

theorem toOption_mapM_congr {items : List ι} {f g : ι → Except ε α}
    (same : ∀ item ∈ items, (f item).toOption = (g item).toOption) :
    (items.mapM f).toOption = (items.mapM g).toOption := by
  induction items with
  | nil => rfl
  | cons item rest ih =>
    obtain ⟨first, others⟩ := List.forall_mem_cons.mp same
    simp only [List.mapM_cons, toOption_bind, first, ih others]

/-- A list that goes through in one order does in any, with its results in that order. -/
theorem mapM_perm {f : ι → Except ε α} {items others : List ι} {results : List α}
    (order : items.Perm others) (done : items.mapM f = .ok results) :
    ∃ changed, others.mapM f = .ok changed ∧ changed.Perm results := by
  simp only [mapM_ok_iff] at done ⊢
  exact List.perm_comp_forall₂ order.symm done

/-- Steps that commute are taken in any order. -/
theorem foldlM_perm {step : δ → ι → Option δ} {items others : List ι} (order : items.Perm others)
    (commute : items.Pairwise fun first second =>
      ∀ state, (step state first).bind (step · second) = (step state second).bind (step · first))
    (state : δ) : items.foldlM step state = others.foldlM step state := by
  induction order generalizing state with
  | nil => rfl
  | cons item _ ih =>
    simp only [List.foldlM_cons, ih (List.pairwise_cons.mp commute).2]
  | swap first second rest =>
    have swapped := (List.pairwise_cons.mp commute).1 first List.mem_cons_self state
    simp only [List.foldlM_cons, Option.bind_eq_bind, ← Option.bind_assoc]
    rw [swapped]
  | trans order _ ih ih' =>
    have later := (order.pairwise_iff fun same state => (same state).symm).mp commute
    rw [ih commute, ih' later]

end OperatorGen
