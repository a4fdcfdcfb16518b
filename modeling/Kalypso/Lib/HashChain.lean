import Mathlib.Logic.Basic

/-!
# Hash chains

Every hash of a chain is computed from the hash before it and an input.  If the hash function has
no collisions, a hash of the chain stands for its place and for all inputs up to it.
-/

set_option autoImplicit false

namespace Kalypso.Lib

universe u v

variable {H : Type u} {I : Type v}

def hashChain (hash : H → I → H) (start : H) (input : Nat → I) : Nat → H
  | 0 => hash start (input 0)
  | n + 1 => hash (hashChain hash start input n) (input (n + 1))

def hashBefore (hash : H → I → H) (start : H) (input : Nat → I) : Nat → H
  | 0 => start
  | n + 1 => hashChain hash start input n

variable {hash : H → I → H} {start : H} {input input' : Nat → I}

theorem hashChain_eq (n : Nat) :
    hashChain hash start input n = hash (hashBefore hash start input n) (input n) := by
  cases n with
  | zero => rfl
  | succ n => rfl

theorem forall_le_succ {P : Nat → Prop} {n : Nat} :
    (∀ k ≤ n + 1, P k) ↔ (∀ k ≤ n, P k) ∧ P (n + 1) := by
  constructor
  · intro all
    exact ⟨fun k bound => all k (Nat.le_succ_of_le bound), all _ (Nat.le_refl _)⟩
  · intro all k bound
    rcases Nat.le_succ_iff.mp bound with earlier | last
    · exact all.1 k earlier
    · rw [last]
      exact all.2

theorem hashChain_congr {n : Nat} (same : ∀ k ≤ n, input k = input' k) :
    hashChain hash start input n = hashChain hash start input' n := by
  induction n with
  | zero => rw [hashChain, hashChain, same 0 (Nat.le_refl 0)]
  | succ n ih =>
    obtain ⟨earlier, last⟩ := forall_le_succ.mp same
    rw [hashChain, hashChain, ih earlier, last]

/-- Hashes at the same place are equal exactly if all inputs are.  Parents have to be told apart
only among themselves, and the start of the chain is not compared with them. -/
theorem hashChain_inj (made : H → Prop) (makes : ∀ parent i, made (hash parent i))
    (atStart : ∀ i i', hash start i = hash start i' → i = i')
    (later : ∀ parent parent' i i', made parent → made parent' →
      hash parent i = hash parent' i' → parent = parent' ∧ i = i') (n : Nat) :
    hashChain hash start input n = hashChain hash start input' n ↔
      ∀ k ≤ n, input k = input' k := by
  refine ⟨?_, hashChain_congr⟩
  induction n with
  | zero =>
    intro same k bound
    rw [Nat.le_zero.mp bound]
    exact atStart _ _ same
  | succ n ih =>
    intro same
    have isMade : ∀ input : Nat → I, made (hashChain hash start input n) := by
      intro input
      rw [hashChain_eq]
      exact makes _ _
    obtain ⟨parents, inputs⟩ := later _ _ _ _ (isMade input) (isMade input') same
    exact forall_le_succ.mpr ⟨ih parents, inputs⟩

end Kalypso.Lib
