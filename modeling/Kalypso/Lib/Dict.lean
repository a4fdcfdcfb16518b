import Mathlib.Data.List.Nodup
import Mathlib.Algebra.BigOperators.Group.List.Basic

/-!
# Insertion-ordered dictionaries

A dictionary is a list of entries whose keys are pairwise distinct, in the order in which
the keys were first inserted.  Assigning to a key that is present keeps its position;
assigning to a new key appends it.
-/

set_option autoImplicit false

namespace Kalypso.Lib

universe u v

structure Dict (κ : Type u) (ν : Type v) where
  entries : List (κ × ν)
  nodup : (entries.map Prod.fst).Nodup

namespace Dict

variable {κ : Type u} {ν : Type v}

def empty : Dict κ ν := ⟨[], List.nodup_nil⟩

def keys (d : Dict κ ν) : List κ := d.entries.map Prod.fst

def values (d : Dict κ ν) : List ν := d.entries.map Prod.snd

theorem keys_map_snd {μ : Type*} (f : κ → ν → μ) (entries : List (κ × ν)) :
    (entries.map fun entry => (entry.1, f entry.1 entry.2)).map Prod.fst =
      entries.map Prod.fst := by
  simp [List.map_map, Function.comp_def]

def mapValues {μ : Type*} (f : κ → ν → μ) (d : Dict κ ν) : Dict κ μ :=
  ⟨d.entries.map fun entry => (entry.1, f entry.1 entry.2), by
    rw [keys_map_snd]
    exact d.nodup⟩

theorem keys_mapValues {μ : Type*} (f : κ → ν → μ) (d : Dict κ ν) : (d.mapValues f).keys = d.keys :=
  keys_map_snd f d.entries

theorem mapValues_mapValues {μ ξ : Type*} (f : κ → ν → μ) (g : κ → μ → ξ) (d : Dict κ ν) :
    (d.mapValues f).mapValues g = d.mapValues fun k v => g k (f k v) := by
  simp [mapValues, Function.comp_def]

theorem mapValues_id (d : Dict κ ν) : d.mapValues (fun _ v => v) = d := by
  simp [mapValues]

variable [DecidableEq κ]

def lookup (k : κ) : List (κ × ν) → Option ν
  | [] => none
  | (k', v) :: rest => if k' = k then some v else lookup k rest

def get? (d : Dict κ ν) (k : κ) : Option ν := lookup k d.entries

def getD (d : Dict κ ν) (k : κ) (default : ν) : ν := (d.get? k).getD default

def assign (k : κ) (v : ν) : List (κ × ν) → List (κ × ν)
  | [] => [(k, v)]
  | (k', v') :: rest => if k' = k then (k, v) :: rest else (k', v') :: assign k v rest

def remove (k : κ) : List (κ × ν) → List (κ × ν)
  | [] => []
  | (k', v') :: rest => if k' = k then rest else (k', v') :: remove k rest

theorem keys_remove (k : κ) (entries : List (κ × ν)) :
    (remove k entries).map Prod.fst = (entries.map Prod.fst).erase k := by
  induction entries with
  | nil => rfl
  | cons entry rest ih =>
    obtain ⟨head, value⟩ := entry
    by_cases same : head = k
    · subst same
      simp [remove]
    · rw [remove, if_neg same, List.map_cons, List.map_cons, ih,
        List.erase_cons_tail (by simpa using same)]

theorem assign_perm (k : κ) (v : ν) (entries : List (κ × ν)) :
    (assign k v entries).Perm ((k, v) :: remove k entries) := by
  induction entries with
  | nil => exact List.Perm.refl _
  | cons entry rest ih =>
    obtain ⟨head, value⟩ := entry
    by_cases same : head = k
    · rw [assign, remove, if_pos same, if_pos same]
    · rw [assign, remove, if_neg same, if_neg same]
      exact (ih.cons _).trans (List.Perm.swap _ _ _)

theorem mem_keys_assign (k : κ) (v : ν) (k' : κ) (entries : List (κ × ν)) :
    k' ∈ (assign k v entries).map Prod.fst ↔ k' = k ∨ k' ∈ entries.map Prod.fst := by
  rw [((assign_perm k v entries).map Prod.fst).mem_iff, List.map_cons, keys_remove, List.mem_cons]
  by_cases same : k' = k
  · simp [same]
  · rw [List.mem_erase_of_ne same]

theorem nodup_assign (k : κ) (v : ν) (entries : List (κ × ν))
    (distinct : (entries.map Prod.fst).Nodup) : ((assign k v entries).map Prod.fst).Nodup := by
  rw [((assign_perm k v entries).map Prod.fst).nodup_iff, List.map_cons, keys_remove]
  exact List.nodup_cons.mpr ⟨distinct.not_mem_erase, distinct.erase k⟩

theorem nodup_remove (k : κ) (entries : List (κ × ν)) (distinct : (entries.map Prod.fst).Nodup) :
    ((remove k entries).map Prod.fst).Nodup := by
  rw [keys_remove]
  exact distinct.erase k

def set (d : Dict κ ν) (k : κ) (v : ν) : Dict κ ν :=
  ⟨assign k v d.entries, nodup_assign k v d.entries d.nodup⟩

def erase (d : Dict κ ν) (k : κ) : Dict κ ν :=
  ⟨remove k d.entries, nodup_remove k d.entries d.nodup⟩

/-! ## Lookup after an update -/

theorem lookup_assign (k : κ) (v : ν) (k' : κ) (entries : List (κ × ν)) :
    lookup k' (assign k v entries) = if k' = k then some v else lookup k' entries := by
  induction entries with
  | nil =>
    by_cases same : k' = k
    · simp [assign, lookup, same]
    · simp [assign, lookup, same, Ne.symm same]
  | cons entry rest ih =>
    obtain ⟨head, value⟩ := entry
    by_cases same : head = k
    · subst same
      by_cases key : k' = head
      · simp [assign, lookup, key]
      · simp [assign, lookup, key, Ne.symm key]
    · by_cases key : head = k'
      · subst key
        simp [assign, lookup, same]
      · simp [assign, lookup, same, key, ih]

theorem lookup_eq_none_iff (k : κ) (entries : List (κ × ν)) :
    lookup k entries = none ↔ k ∉ entries.map Prod.fst := by
  induction entries with
  | nil => simp [lookup]
  | cons entry rest ih =>
    obtain ⟨head, value⟩ := entry
    by_cases same : head = k
    · simp [lookup, same]
    · rw [lookup, if_neg same, ih, List.map_cons, List.mem_cons, not_or]
      exact ⟨fun absent => ⟨Ne.symm same, absent⟩, And.right⟩

theorem lookup_remove (k k' : κ) :
    ∀ entries : List (κ × ν), (entries.map Prod.fst).Nodup →
      lookup k' (remove k entries) = if k' = k then none else lookup k' entries := by
  intro entries
  induction entries with
  | nil => simp [remove, lookup]
  | cons entry rest ih =>
    obtain ⟨head, value⟩ := entry
    intro distinct
    rw [List.map_cons, List.nodup_cons] at distinct
    by_cases same : head = k
    · subst same
      by_cases key : k' = head
      · subst key
        simpa [remove] using (lookup_eq_none_iff k' rest).mpr distinct.1
      · simp [remove, lookup, key, Ne.symm key]
    · by_cases key : head = k'
      · subst key
        simp [remove, lookup, same]
      · simp [remove, lookup, same, key, ih distinct.2]

theorem assign_new {k : κ} {entries : List (κ × ν)} (absent : lookup k entries = none) :
    (∀ v, assign k v entries = entries ++ [(k, v)]) ∧ remove k entries = entries := by
  induction entries with
  | nil => simp [assign, remove]
  | cons entry rest ih =>
    obtain ⟨head, value⟩ := entry
    by_cases same : head = k
    · simp [lookup, same] at absent
    · rw [lookup, if_neg same] at absent
      simp [assign, remove, same, ih absent]

variable (d : Dict κ ν)

theorem keys_erase (k : κ) : (d.erase k).keys = d.keys.erase k :=
  keys_remove k d.entries

theorem length_erase {k : κ} (stored : k ∈ d.keys) :
    (d.erase k).entries.length + 1 = d.entries.length := by
  have length := congrArg List.length (keys_erase d k)
  have positive := List.length_pos_of_mem stored
  rw [List.length_erase_of_mem stored] at length
  simp only [keys, List.length_map] at length positive
  omega

theorem get?_set (k k' : κ) (v : ν) : (d.set k v).get? k' = if k' = k then some v else d.get? k' :=
  lookup_assign k v k' d.entries

@[simp] theorem get?_set_self (k : κ) (v : ν) : (d.set k v).get? k = some v := by
  rw [get?_set, if_pos rfl]

theorem get?_set_of_ne {k k' : κ} (v : ν) (different : k' ≠ k) :
    (d.set k v).get? k' = d.get? k' := by
  rw [get?_set, if_neg different]

theorem get?_erase (k k' : κ) : (d.erase k).get? k' = if k' = k then none else d.get? k' :=
  lookup_remove k k' d.entries d.nodup

@[simp] theorem get?_erase_self (k : κ) : (d.erase k).get? k = none := by
  rw [get?_erase, if_pos rfl]

theorem get?_erase_of_ne {k k' : κ} (different : k' ≠ k) : (d.erase k).get? k' = d.get? k' := by
  rw [get?_erase, if_neg different]

variable {d} in
/-- What holds of the entries holds after an assignment if it holds of the new entry. -/
theorem forall_set {P : κ → ν → Prop} {k : κ} {v : ν} (new : P k v)
    (old : ∀ k' v', d.get? k' = some v' → P k' v') :
    ∀ k' v', (d.set k v).get? k' = some v' → P k' v' := by
  intro k' v' found
  rw [get?_set] at found
  split at found
  · rename_i same
    cases found
    exact same ▸ new
  · exact old k' v' found

variable {d} in
theorem get?_of_erase {k k' : κ} {v : ν} (found : (d.erase k).get? k' = some v) :
    d.get? k' = some v := by
  rw [get?_erase] at found
  split at found
  · cases found
  · exact found

theorem assign_present (k : κ) (v old : ν) :
    ∀ entries : List (κ × ν), (entries.map Prod.fst).Nodup → lookup k entries = some old →
      assign k v entries =
        entries.map fun entry => (entry.1, if entry.1 = k then v else entry.2) := by
  intro entries
  induction entries with
  | nil =>
    intro _ found
    cases found
  | cons entry rest ih =>
    obtain ⟨head, value⟩ := entry
    intro distinct found
    rw [List.map_cons, List.nodup_cons] at distinct
    by_cases same : head = k
    · subst same
      have others : rest.map (fun entry => (entry.1, if entry.1 = head then v else entry.2)) =
          rest := by
        refine (List.map_congr_left ?_).trans (List.map_id rest)
        intro entry member
        have different : entry.1 ≠ head := by
          intro isHead
          exact distinct.1 (List.mem_map.mpr ⟨entry, member, isHead⟩)
        simp [different]
      simp [assign, others]
    · rw [lookup, if_neg same] at found
      rw [assign, if_neg same, ih distinct.2 found]
      simp [same]

theorem set_present {k : κ} {old : ν} (v : ν) (found : d.get? k = some old) :
    d.set k v = d.mapValues fun k' value => if k' = k then v else value := by
  obtain ⟨entries, distinct⟩ := d
  simp only [set, mapValues, mk.injEq]
  exact assign_present k v old entries distinct found

theorem remove_assign (k : κ) (v : ν) (entries : List (κ × ν)) :
    remove k (assign k v entries) = remove k entries := by
  induction entries with
  | nil => simp [assign, remove]
  | cons entry rest ih =>
    obtain ⟨head, value⟩ := entry
    by_cases same : head = k
    · simp [assign, remove, same]
    · simp [assign, remove, same, ih]

theorem erase_set (k : κ) (v : ν) : (d.set k v).erase k = d.erase k := by
  unfold set erase
  simp only [remove_assign]

theorem assign_self {k : κ} {v : ν} {entries : List (κ × ν)} (found : lookup k entries = some v) :
    assign k v entries = entries := by
  induction entries with
  | nil => cases found
  | cons entry entries ih =>
    rw [lookup] at found
    rw [assign]
    split at found
    · rename_i same
      rw [if_pos same, ← Option.some.inj found, ← same]
    · rename_i different
      rw [if_neg different, ih found]

theorem set_self {d : Dict κ ν} {k : κ} {v : ν} (found : d.get? k = some v) : d.set k v = d := by
  cases d with
  | mk entries nodup =>
    simp only [set, mk.injEq]
    exact assign_self found

theorem get?_eq_none_iff (k : κ) : d.get? k = none ↔ k ∉ d.keys :=
  lookup_eq_none_iff k d.entries

theorem mem_keys_of_get? {k : κ} {v : ν} (found : d.get? k = some v) : k ∈ d.keys := by
  by_contra absent
  rw [(d.get?_eq_none_iff k).mpr absent] at found
  cases found

theorem get?_eq_some_iff (k : κ) (v : ν) : d.get? k = some v ↔ (k, v) ∈ d.entries := by
  have stored : ∀ {w}, d.get? k = some w → (k, w) ∈ d.entries := by
    intro w found
    have member := (assign_perm k w d.entries).mem_iff.mpr List.mem_cons_self
    rwa [assign_self found] at member
  refine ⟨stored, fun member => ?_⟩
  cases found : d.get? k with
  | none => exact absurd (List.mem_map_of_mem member) ((d.get?_eq_none_iff k).mp found)
  | some w =>
    have same := List.inj_on_of_nodup_map d.nodup (stored found) member rfl
    rw [(Prod.mk.inj same).2]

theorem keys_set_new {k : κ} (v : ν) (absent : k ∉ d.keys) : (d.set k v).keys = d.keys ++ [k] := by
  simp [keys, set, (assign_new ((d.get?_eq_none_iff k).mpr absent)).1]

theorem erase_absent {k : κ} (absent : d.get? k = none) : (d.erase k).entries = d.entries :=
  (assign_new absent).2

/-! ## Sums over the entries -/

section Sum

variable {M : Type*} [AddCommMonoid M] (weight : κ × ν → M)

theorem sum_assign (k : κ) (v : ν) (entries : List (κ × ν)) :
    ((assign k v entries).map weight).sum =
      ((remove k entries).map weight).sum + weight (k, v) := by
  rw [((assign_perm k v entries).map weight).sum_eq, List.map_cons, List.sum_cons, add_comm]

variable (d : Dict κ ν)

theorem sum_set_new {k : κ} (v : ν) (absent : d.get? k = none) :
    ((d.set k v).entries.map weight).sum = (d.entries.map weight).sum + weight (k, v) := by
  rw [← d.erase_absent absent]
  exact sum_assign weight k v d.entries

theorem sum_erase_present {k : κ} {v : ν} (found : d.get? k = some v) :
    ((d.erase k).entries.map weight).sum + weight (k, v) = (d.entries.map weight).sum := by
  rw [erase, ← sum_assign, assign_self found]

theorem sum_set_present {k : κ} {old : ν} (v : ν) (found : d.get? k = some old) :
    ((d.set k v).entries.map weight).sum + weight (k, old) =
      (d.entries.map weight).sum + weight (k, v) := by
  rw [← sum_erase_present weight d found, add_right_comm]
  exact congrArg (· + weight (k, old)) (sum_assign weight k v d.entries)

end Sum

end Dict

end Kalypso.Lib
