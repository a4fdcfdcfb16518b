import Mathlib.Algebra.BigOperators.Group.List.Basic
import Mathlib.Algebra.BigOperators.Group.Multiset.Basic
import Mathlib.Tactic.Abel

/-!
# Sums over two aligned lists, one of which is updated

A table of fixed descriptions and a table of states, aligned by index.  Replacing one state
moves the sum by the difference of two weights.  The weights live in any additive commutative
monoid, so that one lemma serves integer totals and multisets of entries.
-/

set_option autoImplicit false

namespace Kalypso.Lib

variable {κ σ M : Type*} [AddCommMonoid M]

def alignedSum (f : κ → σ → M) (keys : List κ) (states : List σ) : M :=
  (List.zipWith f keys states).sum

@[simp] theorem alignedSum_nil_left (f : κ → σ → M) (states : List σ) :
    alignedSum f [] states = 0 := by
  simp [alignedSum]

@[simp] theorem alignedSum_cons (f : κ → σ → M) (key : κ) (keys : List κ) (state : σ)
    (states : List σ) :
    alignedSum f (key :: keys) (state :: states) = f key state + alignedSum f keys states := by
  simp [alignedSum]

theorem alignedSum_set (f : κ → σ → M) :
    ∀ (keys : List κ) (states : List σ) (i : Nat) (key : κ) (old new : σ),
      keys[i]? = some key → states[i]? = some old →
        alignedSum f keys (states.set i new) + f key old =
          alignedSum f keys states + f key new := by
  intro keys
  induction keys with
  | nil =>
    intro states i key old new found
    simp at found
  | cons head keys ih =>
    intro states i key old new found present
    cases states with
    | nil => simp at present
    | cons state states =>
      cases i with
      | zero =>
        simp only [List.getElem?_cons_zero, Option.some.injEq] at found present
        subst found present
        simp only [List.set_cons_zero, alignedSum_cons]
        abel
      | succ i =>
        simp only [List.getElem?_cons_succ] at found present
        simp only [List.set_cons_succ, alignedSum_cons, add_assoc]
        rw [ih states i key old new found present]

/-- The sum over a single list, split at the element that is replaced. -/
theorem exists_sum_map_set (f : σ → M) :
    ∀ (states : List σ) (i : Nat) (old : σ), states[i]? = some old →
      ∃ others, (states.map f).sum = f old + others ∧
        ∀ new, ((states.set i new).map f).sum = f new + others := by
  intro states
  induction states with
  | nil =>
    intro i old present
    simp at present
  | cons state states ih =>
    intro i old present
    cases i with
    | zero =>
      simp only [List.getElem?_cons_zero, Option.some.injEq] at present
      subst present
      exact ⟨(states.map f).sum, by simp, by simp⟩
    | succ i =>
      simp only [List.getElem?_cons_succ] at present
      obtain ⟨others, before, after⟩ := ih i old present
      refine ⟨f state + others, ?_, ?_⟩
      · rw [List.map_cons, List.sum_cons, before, add_left_comm]
      · intro new
        rw [List.set_cons_succ, List.map_cons, List.sum_cons, after, add_left_comm]

theorem mem_sum_map {β : Type*} (f : σ → Multiset β) (x : β) (states : List σ) :
    x ∈ (states.map f).sum ↔ ∃ state ∈ states, x ∈ f state := by
  induction states with
  | nil => simp
  | cons state states ih => simp [ih]

theorem count_sum_le {β : Type*} [DecidableEq β] (f : σ → Multiset β) (x : β) {states : List σ}
    (once : ∀ state ∈ states, (f state).count x ≤ 1) :
    (states.map f).sum.count x ≤ states.length := by
  induction states with
  | nil => simp
  | cons state states ih =>
    obtain ⟨first, rest⟩ := List.forall_mem_cons.mp once
    have others := ih rest
    rw [List.map_cons, List.sum_cons, Multiset.count_add, List.length_cons]
    omega

/-- A value that no summand has twice, but the sum as often as there are summands, is in all of
them. -/
theorem mem_of_count_sum {β : Type*} [DecidableEq β] (f : σ → Multiset β) (x : β) {states : List σ}
    (once : ∀ state ∈ states, (f state).count x ≤ 1)
    (all : (states.map f).sum.count x = states.length) : ∀ state ∈ states, x ∈ f state := by
  induction states with
  | nil => exact fun _ member => absurd member List.not_mem_nil
  | cons state states ih =>
    obtain ⟨first, rest⟩ := List.forall_mem_cons.mp once
    have others := count_sum_le f x rest
    rw [List.map_cons, List.sum_cons, Multiset.count_add, List.length_cons] at all
    refine List.forall_mem_cons.mpr ⟨?_, ih rest (by omega)⟩
    exact Multiset.count_pos.mp (by omega)

/-- A member of an aligned sum of multisets is a member of one summand. -/
theorem mem_alignedSum {β : Type*} (f : κ → σ → Multiset β) (x : β) :
    ∀ (keys : List κ) (states : List σ),
      x ∈ alignedSum f keys states ↔
        ∃ (i : Nat) (key : κ) (state : σ),
          keys[i]? = some key ∧ states[i]? = some state ∧ x ∈ f key state := by
  intro keys
  induction keys with
  | nil =>
    intro states
    simp
  | cons head keys ih =>
    intro states
    cases states with
    | nil => simp [alignedSum]
    | cons state states =>
      simp only [alignedSum_cons, Multiset.mem_add, ih states]
      constructor
      · intro member
        rcases member with member | ⟨i, key, found, atKey, atState, member⟩
        · exact ⟨0, head, state, rfl, rfl, member⟩
        · exact ⟨i + 1, key, found, atKey, atState, member⟩
      · intro member
        obtain ⟨i, key, found, atKey, atState, member⟩ := member
        cases i with
        | zero =>
          simp only [List.getElem?_cons_zero, Option.some.injEq] at atKey atState
          subst atKey atState
          exact Or.inl member
        | succ i => exact Or.inr ⟨i, key, found, atKey, atState, member⟩

end Kalypso.Lib
