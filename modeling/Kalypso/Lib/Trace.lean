import Mathlib.Data.List.Basic

/-!
# Runs of labelled steps

A run is the list of the labels of its steps.
-/

set_option autoImplicit false

namespace Kalypso.Lib

universe u v

variable {σ : Type u} {α : Type v} {step : σ → α → σ → Prop}

inductive Trace (step : σ → α → σ → Prop) : σ → List α → σ → Prop
  | nil (s : σ) : Trace step s [] s
  | cons {s t u : σ} {label : α} {labels : List α} : step s label t → Trace step t labels u →
      Trace step s (label :: labels) u

/-- A run is made to decide what it comes to. -/
instance decidableIsSome {o : Option α} {P : α → Prop} [DecidablePred P] :
    Decidable (∃ a, o = some a ∧ P a) :=
  match o with
  | none => isFalse fun ⟨_, isSome, _⟩ => nomatch isSome
  | some a => decidable_of_iff (P a)
      ⟨fun holds => ⟨a, rfl, holds⟩, fun ⟨_, isSome, holds⟩ => Option.some.inj isSome ▸ holds⟩

namespace Trace

theorem append {s t u : σ} {labels labels' : List α} (first : Trace step s labels t)
    (second : Trace step t labels' u) : Trace step s (labels ++ labels') u := by
  induction first with
  | nil s => exact second
  | cons head _ ih => exact .cons head (ih second)

variable {labels : List α} {s t : σ}

theorem of_foldlM {next : σ → α → Option σ} (runs : labels.foldlM next s = some t) :
    Trace (fun s label t => next s label = some t) s labels t := by
  induction labels generalizing s with
  | nil =>
    cases runs
    exact .nil _
  | cons label rest ih =>
    rw [List.foldlM_cons] at runs
    obtain ⟨middle, first, later⟩ := Option.bind_eq_some_iff.mp runs
    exact .cons first (ih later)

/-- A loop of steps that succeed and keep `P` succeeds and keeps `P`. -/
theorem exists_foldlM {next : σ → α → Option σ} {P : σ → Prop} {s : σ}
    (steps : ∀ label ∈ labels, ∀ s, P s → ∃ t, next s label = some t ∧ P t) (start : P s) :
    ∃ t, labels.foldlM next s = some t ∧ P t := by
  induction labels generalizing s with
  | nil => exact ⟨s, rfl, start⟩
  | cons label rest ih =>
    obtain ⟨middle, first, held⟩ := steps label List.mem_cons_self s start
    obtain ⟨last, later, kept⟩ :=
      ih (fun other member => steps other (List.mem_cons_of_mem _ member)) held
    refine ⟨last, ?_, kept⟩
    rw [List.foldlM_cons, first]
    exact later

theorem invariant {P : σ → Prop} (keeps : ∀ s label t, step s label t → P s → P t)
    (run : Trace step s labels t) (start : P s) : P t := by
  induction run with
  | nil s => exact start
  | cons head _ ih => exact ih (keeps _ _ _ head start)

/-- An invariant of the steps with some labels is an invariant of the runs of them. -/
theorem invariant_of {P : σ → Prop} {A : α → Prop}
    (keeps : ∀ s label t, A label → step s label t → P s → P t) (run : Trace step s labels t)
    (all : ∀ label ∈ labels, A label) (start : P s) : P t := by
  induction run with
  | nil s => exact start
  | cons head _ ih =>
    refine ih (fun label member => all label (List.mem_cons_of_mem _ member)) ?_
    exact keeps _ _ _ (all _ List.mem_cons_self) head start

theorem history {P : List α → σ → Prop}
    (keeps : ∀ past s label t, step s label t → P past s → P (past ++ [label]) t)
    (run : Trace step s labels t) (start : P [] s) : P labels t := by
  have extended : ∀ past, P past s → P (past ++ labels) t := by
    clear start
    induction run with
    | nil s =>
      intro past held
      rwa [List.append_nil]
    | @cons s t u label labels head _ ih =>
      intro past held
      have later := ih (past ++ [label]) (keeps past s label t head held)
      rwa [List.append_assoc, List.singleton_append] at later
  exact extended [] start

theorem mono {step' : σ → α → σ → Prop} (run : Trace step s labels t)
    (weaker : ∀ s label t, step s label t → step' s label t) : Trace step' s labels t := by
  induction run with
  | nil s => exact .nil s
  | cons head _ ih => exact .cons (weaker _ _ _ head) ih

theorem mono_of {step' : σ → α → σ → Prop} {A : α → Prop} (run : Trace step s labels t)
    (all : ∀ label ∈ labels, A label)
    (weaker : ∀ s label t, A label → step s label t → step' s label t) :
    Trace step' s labels t := by
  induction run with
  | nil s => exact .nil s
  | cons head _ ih =>
    refine .cons (weaker _ _ _ (all _ List.mem_cons_self) head) (ih fun label member => ?_)
    exact all label (List.mem_cons_of_mem _ member)

end Trace

end Kalypso.Lib
