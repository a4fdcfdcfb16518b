import Mathlib.Data.Multiset.AddSub
import Mathlib.Data.List.Nodup
import Mathlib.Data.List.Count

/-!
# Pools of counted references

Every resource of a pool has a count of its references.  The resources that nobody holds wait
in a list to be handed out, except those that are kept back.  Only some resources are managed
in this way; an unmanaged one may be held and released like any other, but its count means
nothing and it never waits.

The pool is sound for a multiset of holders when the counts are the multiplicities and the
waiting resources are exactly the managed ones that are neither held nor kept back.  Each
operation moves the multiset by the references it takes or gives back.
-/

set_option autoImplicit false

namespace Kalypso.Lib

universe u

@[ext]
structure RefPool (β : Type u) where
  count : β → Int
  kept : β → Bool
  free : List β

namespace RefPool

variable {β : Type u} [DecidableEq β] {managed : β → Prop} {p : RefPool β}
  {holders : Multiset β}

structure Sound (managed : β → Prop) (p : RefPool β) (holders : Multiset β) : Prop where
  counted : ∀ b, managed b → p.count b = holders.count b
  free_iff : ∀ b, managed b → (b ∈ p.free ↔ p.count b = 0 ∧ p.kept b = false)
  nodup : p.free.Nodup
  within : ∀ b ∈ p.free, managed b

theorem Sound.count_eq_zero_iff (sound : p.Sound managed holders) {b : β} (isManaged : managed b) :
    p.count b = 0 ↔ b ∉ holders := by
  rw [sound.counted b isManaged, Int.natCast_eq_zero, Multiset.count_eq_zero]

theorem Sound.of_mem_free (sound : p.Sound managed holders) {b : β} (waiting : b ∈ p.free) :
    p.count b = 0 ∧ p.kept b = false ∧ b ∉ holders := by
  have isManaged := sound.within b waiting
  obtain ⟨unheld, unkept⟩ := (sound.free_iff b isManaged).mp waiting
  exact ⟨unheld, unkept, (sound.count_eq_zero_iff isManaged).mp unheld⟩

theorem Sound.congr {holders' : Multiset β} (sound : p.Sound managed holders)
    (same : ∀ b, managed b → holders'.count b = holders.count b) : p.Sound managed holders' := by
  refine ⟨?_, sound.free_iff, sound.nodup, sound.within⟩
  intro b isManaged
  rw [same b isManaged]
  exact sound.counted b isManaged

/-! ## Taking references -/

def acquire (b : β) (p : RefPool β) : RefPool β :=
  { p with
    count := Function.update p.count b (p.count b + 1)
    free := p.free.erase b }

def acquireAll (bs : List β) (p : RefPool β) : RefPool β :=
  bs.foldl (fun p b => p.acquire b) p

@[simp] theorem acquire_kept (b : β) : (p.acquire b).kept = p.kept := rfl

@[simp] theorem acquireAll_nil : p.acquireAll [] = p := rfl

@[simp] theorem acquireAll_cons (b : β) (bs : List β) :
    p.acquireAll (b :: bs) = (p.acquire b).acquireAll bs := rfl

theorem acquireAll_kept (bs : List β) : ∀ p : RefPool β, (p.acquireAll bs).kept = p.kept := by
  induction bs with
  | nil => exact fun _ => rfl
  | cons b bs ih =>
    intro p
    rw [acquireAll_cons, ih, acquire_kept]

theorem acquireAll_count (bs : List β) :
    ∀ (p : RefPool β) (x : β), (p.acquireAll bs).count x = p.count x + bs.count x := by
  induction bs with
  | nil => simp
  | cons b bs ih =>
    intro p x
    rw [acquireAll_cons, ih, List.count_cons]
    by_cases same : x = b
    · subst same
      simp [acquire]
      omega
    · simp [acquire, same, Ne.symm same]

theorem Sound.acquire (sound : p.Sound managed holders) (b : β) :
    (p.acquire b).Sound managed (b ::ₘ holders) := by
  refine ⟨?_, ?_, sound.nodup.erase b,
    fun x member => sound.within x (List.mem_of_mem_erase member)⟩
  · intro x isManaged
    by_cases same : x = b
    · subst same
      simp [RefPool.acquire, sound.counted x isManaged]
    · simp [RefPool.acquire, Function.update_of_ne same, Multiset.count_cons_of_ne same,
        sound.counted x isManaged]
  · intro x isManaged
    rw [RefPool.acquire, sound.nodup.mem_erase_iff]
    by_cases same : x = b
    · subst same
      have nonneg := sound.counted x isManaged
      have held : p.count x + 1 ≠ 0 := by omega
      simp [held]
    · simp [same, sound.free_iff x isManaged]

theorem Sound.acquireAll (bs : List β) :
    ∀ {p : RefPool β} {holders : Multiset β}, p.Sound managed holders →
      (p.acquireAll bs).Sound managed ((bs : Multiset β) + holders) := by
  induction bs with
  | nil =>
    intro p holders sound
    simpa using sound
  | cons b bs ih =>
    intro p holders sound
    have taken := ih (sound.acquire b)
    rwa [Multiset.add_cons, ← Multiset.cons_add, Multiset.cons_coe] at taken

theorem Sound.length_free {p' : RefPool β} {bs : List β} (sound : p.Sound managed holders)
    (taken : p'.Sound managed ((bs : Multiset β) + holders)) (kept : p'.kept = p.kept)
    (once : (bs.filter (· ∈ p.free)).Nodup) :
    p'.free.length + bs.countP (· ∈ p.free) = p.free.length := by
  have stays : ∀ b, b ∈ p'.free ↔ b ∈ p.free ∧ b ∉ bs := by
    intro b
    by_cases isManaged : managed b
    · rw [taken.free_iff b isManaged, sound.free_iff b isManaged,
        taken.count_eq_zero_iff isManaged, sound.count_eq_zero_iff isManaged, kept,
        Multiset.mem_add, Multiset.mem_coe]
      tauto
    · exact iff_of_false (fun waiting => isManaged (taken.within b waiting))
        fun waiting => isManaged (sound.within b waiting.1)
  have parts : (p'.free ++ bs.filter (· ∈ p.free)).Perm p.free := by
    refine (List.perm_ext_iff_of_nodup (List.Nodup.append taken.nodup once ?_) sound.nodup).mpr ?_
    · intro b waits isTaken
      exact ((stays b).mp waits).2 (List.mem_of_mem_filter isTaken)
    · intro b
      rw [List.mem_append, stays, List.mem_filter, decide_eq_true_iff]
      tauto
  rw [← parts.length_eq, List.length_append, List.countP_eq_length_filter]

theorem acquireAll_take_free (n : Nat) :
    ∀ p : RefPool β, (p.acquireAll (p.free.take n)).free = p.free.drop n := by
  induction n with
  | zero => simp
  | succ n ih =>
    intro p
    cases waiting : p.free with
    | nil => simp [waiting]
    | cons b rest =>
      have tail : (p.acquire b).free = rest := by simp [acquire, waiting]
      have next := ih (p.acquire b)
      rw [tail] at next
      rw [List.take_succ_cons, acquireAll_cons, next, List.drop_succ_cons]

/-! ## Giving references back -/

/-- Give back one reference for every entry of `bs`; what nobody holds any more waits again,
unless it is kept back. -/
def release (managed : β → Prop) [DecidablePred managed] (bs : List β) (p : RefPool β) :
    RefPool β :=
  { p with
    count := fun b => p.count b - bs.count b
    free := p.free ++
      bs.filter fun b => managed b ∧ p.count b - bs.count b = 0 ∧ p.kept b = false }

theorem Sound.release [DecidablePred managed] {bs : List β}
    (sound : p.Sound managed ((bs : Multiset β) + holders))
    (once : (bs.filter fun b => managed b).Nodup) :
    (p.release managed bs).Sound managed holders := by
  have counted : ∀ b, managed b → p.count b = bs.count b + holders.count b := by
    intro b isManaged
    rw [sound.counted b isManaged, Multiset.count_add, Multiset.coe_count, Int.natCast_add]
  have absent : ∀ b ∈ bs, b ∉ p.free := by
    intro b member waiting
    exact (sound.of_mem_free waiting).2.2 (Multiset.mem_add.mpr (Or.inl member))
  refine ⟨?_, ?_, ?_, ?_⟩
  · intro b isManaged
    have before := counted b isManaged
    show p.count b - bs.count b = holders.count b
    omega
  · intro b isManaged
    have before := counted b isManaged
    simp only [RefPool.release, List.mem_append, List.mem_filter, decide_eq_true_eq, isManaged,
      true_and]
    by_cases member : b ∈ bs
    · simp [member, absent b member]
    · have none : bs.count b = 0 := List.count_eq_zero_of_not_mem member
      simp [member, none, sound.free_iff b isManaged]
  · refine List.Nodup.append sound.nodup ?_ ?_
    · refine once.sublist ?_
      have narrower : (bs.filter fun b => managed b ∧ p.count b - bs.count b = 0 ∧
          p.kept b = false) =
          (bs.filter fun b => managed b).filter
            fun b => p.count b - bs.count b = 0 ∧ p.kept b = false := by
        rw [List.filter_filter]
        refine List.filter_congr fun b _ => ?_
        simp [Bool.and_comm]
      rw [narrower]
      exact List.filter_sublist
    · intro b waiting freed
      exact absent b (List.mem_of_mem_filter freed) waiting
  · intro b waiting
    rcases List.mem_append.mp waiting with waiting | freed
    · exact sound.within b waiting
    · have isFreed := List.of_mem_filter freed
      simp only [decide_eq_true_eq] at isFreed
      exact isFreed.1

/-! ## Keeping back -/

def keep (value : Bool) (b : β) (p : RefPool β) : RefPool β :=
  { p with kept := Function.update p.kept b value }

/-- Whether a held resource is kept back does not matter while it is held. -/
theorem Sound.keep (sound : p.Sound managed holders) (value : Bool) {b : β}
    (held : managed b → b ∈ holders) : (p.keep value b).Sound managed holders := by
  refine ⟨sound.counted, ?_, sound.nodup, sound.within⟩
  intro x isManaged
  by_cases same : x = b
  · subst same
    have positive : p.count x ≠ 0 :=
      fun unheld => (sound.count_eq_zero_iff isManaged).mp unheld (held isManaged)
    have busy : x ∉ p.free := fun waiting => positive (sound.of_mem_free waiting).1
    simp [RefPool.keep, positive, busy]
  · simp [RefPool.keep, Function.update_of_ne same, sound.free_iff x isManaged]

end RefPool

end Kalypso.Lib
