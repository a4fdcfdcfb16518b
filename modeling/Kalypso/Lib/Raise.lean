import Mathlib.Data.List.Basic

/-!
# Computations that may raise

Inversion of sequenced computations, and a triple for them: a computation meets a
postcondition and an error condition when its result satisfies the one and an error that it
raises satisfies the other.  Loops stop at the first error.
-/

set_option autoImplicit false

namespace Kalypso.Lib

universe u v w

variable {ε : Type u} {α β : Type v}

variable {x : Except ε α} {f : α → Except ε β}

theorem bind_eq_ok {b : β} : (x >>= f) = .ok b ↔ ∃ a, x = .ok a ∧ f a = .ok b := by
  cases x with
  | error e => simp [bind, Except.bind]
  | ok a => simp [bind, Except.bind]

/-- A computation is run to decide what it returns. -/
instance decidableReturns {P : α → Prop} [DecidablePred P] : Decidable (∃ a, x = .ok a ∧ P a) :=
  match x with
  | .error _ => isFalse fun ⟨_, returns, _⟩ => nomatch returns
  | .ok a => decidable_of_iff (P a)
      ⟨fun holds => ⟨a, rfl, holds⟩, fun ⟨_, returns, holds⟩ => Except.ok.inj returns ▸ holds⟩

theorem map_bind {γ : Type v} (x : Except ε α) (f : α → Except ε β) (g : β → γ) :
    (x >>= f).map g = x >>= fun a => (f a).map g := by
  cases x with
  | error e => rfl
  | ok a => rfl

def Returns (x : Except ε α) : Prop := ∃ a, x = .ok a

@[simp] theorem returns_ok (a : α) : Returns (.ok a : Except ε α) := ⟨a, rfl⟩

@[simp] theorem not_returns_error (e : ε) : ¬ Returns (.error e : Except ε α) := by
  rintro ⟨a, same⟩
  cases same

theorem returns_bind : Returns (x >>= f) ↔ ∃ a, x = .ok a ∧ Returns (f a) := by
  cases x with
  | error e | ok a => simp [Returns, bind, Except.bind]

theorem returns_bind_iff {P : Prop} (rest : ∀ a, Returns (f a) ↔ P) :
    Returns (x >>= f) ↔ Returns x ∧ P := by
  rw [returns_bind]
  constructor
  · rintro ⟨a, first, second⟩
    exact ⟨⟨a, first⟩, (rest a).mp second⟩
  · rintro ⟨⟨a, first⟩, holds⟩
    exact ⟨a, first, (rest a).mpr holds⟩

theorem returns_bind_pure {f : α → β} :
    Returns (x >>= fun a => (pure (f a) : Except ε β)) ↔ Returns x :=
  (returns_bind_iff fun a => iff_true_intro (returns_ok (f a))).trans (iff_of_eq (and_true _))

def Meets (E : ε → Prop) (P : α → Prop) : Except ε α → Prop
  | .ok a => P a
  | .error e => E e

/-- Nothing is said about an error. -/
abbrev Gives (P : α → Prop) : Except ε α → Prop := Meets (fun _ => True) P

namespace Meets

variable {E : ε → Prop} {P : α → Prop} {Q : β → Prop} {x : Except ε α} {f : α → Except ε β}

theorem ok (meets : Meets E P x) {a : α} (returns : x = .ok a) : P a := by
  subst returns
  exact meets

theorem error (meets : Meets E P x) {e : ε} (raises : x = .error e) : E e := by
  subst raises
  exact meets

theorem any {x : Except ε α} : Meets (fun _ => True) (fun _ => True) x := by
  cases x with
  | error e => exact trivial
  | ok a => exact trivial

theorem of_ok (holds : ∀ a, x = .ok a → P a) : Gives P x := by
  cases x with
  | error e => exact trivial
  | ok a => exact holds a rfl

theorem bind (first : Meets E P x) (rest : ∀ a, P a → Meets E Q (f a)) : Meets E Q (x >>= f) := by
  cases x with
  | error e => exact first
  | ok a => exact rest a first

theorem mono {P' : α → Prop} (meets : Meets E P x) (weaker : ∀ a, P a → P' a) : Meets E P' x := by
  cases x with
  | error e => exact meets
  | ok a => exact weaker a meets

theorem weaken {E' : ε → Prop} (meets : Meets E P x) (weaker : ∀ e, E e → E' e) : Meets E' P x := by
  cases x with
  | error e => exact weaker e meets
  | ok a => exact meets

theorem and {E' : ε → Prop} {P' : α → Prop} (left : Meets E P x) (right : Meets E' P' x) :
    Meets E (fun a => P a ∧ P' a) x := by
  cases x with
  | error e => exact left
  | ok a => exact ⟨left, right⟩

theorem foldlM {σ : Type v} {ι : Type w} {P : σ → Prop} {f : σ → ι → Except ε σ} :
    ∀ (items : List ι) (s : σ), (∀ item ∈ items, ∀ s, P s → Meets E P (f s item)) → P s →
      Meets E P (items.foldlM f s) := by
  intro items
  induction items with
  | nil => exact fun _ _ before => before
  | cons item items ih =>
    intro s body before
    rw [List.foldlM_cons]
    refine bind (body item List.mem_cons_self s before) fun middle held => ?_
    exact ih middle (fun item member => body item (List.mem_cons_of_mem _ member)) held

/-- A loop over items with different keys: the item with the key `k` turns `P` into `Q`, and the
other items keep both. -/
theorem foldlM_once {σ : Type v} {ι κ : Type w} {P Q : σ → Prop} {f : σ → ι → Except ε σ}
    {key : ι → κ} {k : κ} :
    ∀ (items : List ι) (s : σ), (items.map key).Nodup → k ∈ items.map key →
      (∀ item ∈ items, key item ≠ k → ∀ s, P s → Meets E P (f s item)) →
      (∀ item ∈ items, key item = k → ∀ s, P s → Meets E Q (f s item)) →
      (∀ item ∈ items, key item ≠ k → ∀ s, Q s → Meets E Q (f s item)) → P s →
        Meets E Q (items.foldlM f s) := by
  intro items
  induction items with
  | nil => exact fun _ _ member => absurd member List.not_mem_nil
  | cons first items ih =>
    intro s nodup member before itself after start
    obtain ⟨notLater, nodupRest⟩ := List.nodup_cons.mp nodup
    rw [List.foldlM_cons]
    rcases List.mem_cons.mp member with here | later
    · refine bind (itself first List.mem_cons_self here.symm s start) fun middle held => ?_
      refine foldlM items middle (fun item isLater => ?_) held
      refine after item (List.mem_cons_of_mem _ isLater) fun same => notLater ?_
      exact List.mem_map.mpr ⟨item, isLater, same.trans here⟩
    · have different : key first ≠ k := fun same => notLater (same ▸ later)
      refine bind (before first List.mem_cons_self different s start) fun middle held => ?_
      exact ih middle nodupRest later
        (fun item isLater => before item (List.mem_cons_of_mem _ isLater))
        (fun item isLater => itself item (List.mem_cons_of_mem _ isLater))
        (fun item isLater => after item (List.mem_cons_of_mem _ isLater)) held

end Meets

end Kalypso.Lib
