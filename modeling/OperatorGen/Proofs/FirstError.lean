import Mathlib.Data.List.Forall2
import Mathlib.Logic.Basic

/-!
# The first error in order

A computation that goes through a list and stops at the first element that fails ends with
the error of that element. `First fails` relates a list to this error, given which elements
fail with which errors.
-/
namespace OperatorGen

variable {α β ε δ : Type}

/-- The error of the first element of a list that fails. -/
inductive First (fails : α → ε → Prop) : List α → ε → Prop
  | here {x : α} {rest : List α} {error : ε} (failed : fails x error) :
    First fails (x :: rest) error
  | later {x : α} {rest : List α} {error : ε} (passed : ∀ other, ¬ fails x other)
    (next : First fails rest error) : First fails (x :: rest) error

namespace First

variable {fails : α → ε → Prop}

@[simp] theorem nil_iff {error : ε} : First fails [] error ↔ False := by
  constructor
  · intro first; cases first
  · exact False.elim

theorem cons_iff {x : α} {rest : List α} {error : ε} :
    First fails (x :: rest) error ↔
      fails x error ∨ (∀ other, ¬ fails x other) ∧ First fails rest error := by
  constructor
  · intro first
    cases first with
    | here failed => exact .inl failed
    | later passed next => exact .inr ⟨passed, next⟩
  · rintro (failed | ⟨passed, next⟩)
    · exact .here failed
    · exact .later passed next

/-- There is a first error as soon as any element fails. -/
theorem exists_iff {list : List α} :
    (∃ error, First fails list error) ↔ ∃ x ∈ list, ∃ error, fails x error := by
  induction list with
  | nil => simp
  | cons x rest ih =>
    simp only [cons_iff, List.mem_cons, exists_eq_or_imp]
    by_cases failed : ∃ error, fails x error
    · obtain ⟨error, failed⟩ := failed
      exact ⟨fun _ => .inl ⟨error, failed⟩, fun _ => ⟨error, .inl failed⟩⟩
    · have passed : ∀ other, ¬ fails x other := not_exists.mp failed
      simpa [passed] using ih

theorem exists_mem {list : List α} {error : ε} (first : First fails list error) :
    ∃ x ∈ list, fails x error := by
  induction first with
  | here failed => exact ⟨_, List.mem_cons_self, failed⟩
  | later _ _ ih =>
    obtain ⟨x, member, failed⟩ := ih
    exact ⟨x, List.mem_cons_of_mem _ member, failed⟩

theorem congr {other : α → ε → Prop} {list : List α} {error : ε}
    (same : ∀ x ∈ list, ∀ e, fails x e ↔ other x e) :
    First fails list error ↔ First other list error := by
  induction list with
  | nil => simp
  | cons x rest ih =>
    have head : ∀ e, fails x e ↔ other x e := same x (by simp)
    have tail := ih (fun y member => same y (by simp [member]))
    simp only [cons_iff, head, tail]

end First

/-! ## Sequences of computations that can fail -/

theorem bind_error_iff {x : Except ε α} {f : α → Except ε β} {error : ε} :
    (x >>= f) = .error error ↔ x = .error error ∨ ∃ a, x = .ok a ∧ f a = .error error := by
  cases x <;> simp [bind, Except.bind]

theorem bind_ok_iff {x : Except ε α} {f : α → Except ε β} {b : β} :
    (x >>= f) = .ok b ↔ ∃ a, x = .ok a ∧ f a = .ok b := by
  cases x <;> simp [bind, Except.bind]

/-- A computation either fails or gives a result. -/
theorem ok_or_error (x : Except ε α) : (∃ a, x = .ok a) ∨ ∃ error, x = .error error := by
  cases x with
  | ok a => exact .inl ⟨a, rfl⟩
  | error e => exact .inr ⟨e, rfl⟩

theorem map_error_iff {x : Except ε α} {f : α → β} {error : ε} :
    x.map f = .error error ↔ x = .error error := by
  cases x <;> simp [Except.map]

theorem map_ok_iff {x : Except ε α} {f : α → β} {b : β} :
    x.map f = .ok b ↔ ∃ a, x = .ok a ∧ f a = b := by
  cases x <;> simp [Except.map]

theorem mapError_ok_iff {x : Except ε α} {words : ε → δ} {a : α} :
    x.mapError words = .ok a ↔ x = .ok a := by
  cases x <;> simp [Except.mapError]

theorem mapError_error_iff {x : Except ε α} {words : ε → δ} {error : δ} :
    x.mapError words = .error error ↔ ∃ reason, x = .error reason ∧ words reason = error := by
  cases x <;> simp [Except.mapError]

/-- A list that is gone through fails with the error of the first element that fails. -/
theorem mapM_error_iff {f : α → Except ε β} {list : List α} {error : ε} :
    list.mapM f = .error error ↔ First (fun x e => f x = .error e) list error := by
  induction list with
  | nil => simp [pure, Except.pure]
  | cons x rest ih =>
    simp only [List.mapM_cons, bind_error_iff, First.cons_iff, ih]
    rcases ok_or_error (f x) with ⟨b, done⟩ | ⟨reason, failed⟩
    · simp [done, pure, Except.pure]
    · simp [failed]

/-- A list goes through as soon as each of its elements does. -/
theorem exists_mapM_ok_iff {f : α → Except ε β} {list : List α} :
    (∃ results, list.mapM f = .ok results) ↔ ∀ x ∈ list, ∃ b, f x = .ok b := by
  induction list with
  | nil => simp [pure, Except.pure]
  | cons x rest ih =>
    simp only [List.mapM_cons, bind_ok_iff, List.forall_mem_cons, ← ih]
    constructor
    · rintro ⟨results, b, head, others, tail, -⟩
      exact ⟨⟨b, head⟩, others, tail⟩
    · rintro ⟨⟨b, head⟩, others, tail⟩
      exact ⟨b :: others, b, head, others, tail, rfl⟩

/-- A list that goes through gives the result of each element in turn. -/
theorem mapM_ok_iff {f : α → Except ε β} {list : List α} {results : List β} :
    list.mapM f = .ok results ↔ List.Forall₂ (fun x b => f x = .ok b) list results := by
  induction list generalizing results with
  | nil =>
    rw [List.forall₂_nil_left_iff]
    exact ⟨fun done => by cases done; rfl, fun same => by rw [same]; rfl⟩
  | cons x rest ih =>
    simp only [List.mapM_cons, bind_ok_iff, List.forall₂_cons_left_iff]
    constructor
    · rintro ⟨b, head, others, tail, same⟩
      cases same
      exact ⟨b, others, head, ih.mp tail, rfl⟩
    · rintro ⟨b, others, head, tail, rfl⟩
      exact ⟨b, head, others, ih.mpr tail, rfl⟩

theorem mem_of_mapM_ok {f : α → Except ε β} {list : List α} {results : List β}
    (done : list.mapM f = .ok results) (b : β) : b ∈ results ↔ ∃ x ∈ list, f x = .ok b := by
  induction list generalizing results with
  | nil => cases done; simp
  | cons x rest ih =>
    simp only [List.mapM_cons, bind_ok_iff] at done
    obtain ⟨first, head, others, tail, same⟩ := done
    cases same
    have same : b = first ↔ f x = .ok b := by rw [head, Except.ok.injEq, eq_comm]
    simp only [List.mem_cons, ih tail, same, exists_eq_or_imp]

/-! ## Two computations -/

/-- Two computations that fail with the same error, or give related results. -/
inductive Alike (related : α → β → Prop) : Except ε α → Except ε β → Prop
  | error (reason : ε) : Alike related (.error reason) (.error reason)
  | ok {a : α} {b : β} (results : related a b) : Alike related (.ok a) (.ok b)

/-- Computations go on alike from related results. -/
theorem Alike.bind {γ : Type} {related : α → β → Prop} {onward : γ → δ → Prop} {x : Except ε α}
    {y : Except ε β} {f : α → Except ε γ} {g : β → Except ε δ} (alike : Alike related x y)
    (next : ∀ a b, related a b → Alike onward (f a) (g b)) : Alike onward (x >>= f) (y >>= g) := by
  cases alike with
  | error reason => exact .error reason
  | ok results => exact next _ _ results

theorem alike_eq_iff {x y : Except ε α} : Alike (· = ·) x y ↔ x = y := by
  constructor
  · rintro (⟨reason⟩ | ⟨rfl⟩) <;> rfl
  · rintro rfl
    cases x with
    | error reason => exact .error reason
    | ok a => exact .ok rfl

theorem Alike.imp {related other : α → β → Prop} {x : Except ε α} {y : Except ε β}
    (alike : Alike related x y) (weaker : ∀ a b, related a b → other a b) : Alike other x y := by
  cases alike with
  | error reason => exact .error reason
  | ok results => exact .ok (weaker _ _ results)

/-- Errors are put into other words after a sequence as well as inside it. -/
theorem mapError_bind (x : Except ε α) (f : α → Except ε β) (words : ε → δ) :
    (x >>= f).mapError words = x.mapError words >>= fun a => (f a).mapError words := by
  cases x <;> rfl

end OperatorGen
