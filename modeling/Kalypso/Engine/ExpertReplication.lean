import Mathlib.Algebra.BigOperators.Fin
import Mathlib.Algebra.Order.BigOperators.Group.Finset
import Mathlib.Algebra.Order.Field.Rat

/-!
# Replication of experts

`replicate_experts` starts with one replica of every expert and gives each further one to an expert
whose replicas carry the highest load.  The source works on all layers at once; this is one row.
Which of several highest loads `torch.max` takes is left open.
-/

set_option autoImplicit false

namespace Kalypso.Engine

structure MaxIndex (F : Type) [LE F] (n : Nat) where
  pick : (Fin n → F) → Fin n
  isMax : ∀ (load : Fin n → F) (e : Fin n), load e ≤ load (pick load)

structure Replicas (n : Nat) where
  phy2log : List (Fin n)
  rank : List Nat
  logcnt : Fin n → Nat

namespace Replicas

variable {F : Type} [Field F] [LinearOrder F] {n : Nat}

def init (n : Nat) : Replicas n := ⟨List.finRange n, List.replicate n 0, fun _ => 1⟩

def add (max : MaxIndex F n) (weight : Fin n → F) (r : Replicas n) : Replicas n :=
  let redundant := max.pick fun e => weight e / r.logcnt e
  ⟨r.phy2log ++ [redundant], r.rank ++ [r.logcnt redundant],
    Function.update r.logcnt redundant (r.logcnt redundant + 1)⟩

end Replicas

section

variable {F : Type} [Field F] [LinearOrder F] {n : Nat}

/-- `none` where the assertion on the number of redundant experts fails. -/
def replicateExperts (max : MaxIndex F n) (weight : Fin n → F) (numPhy : Nat) :
    Option (Replicas n) :=
  if n ≤ numPhy then some ((Replicas.add max weight)^[numPhy - n] (.init n)) else none

/-- The highest load of a replica. -/
def maxLoad (weight : Fin (n + 1) → F) (cnt : Fin (n + 1) → Nat) : F :=
  Finset.univ.sup' Finset.univ_nonempty fun e => weight e / cnt e

end

namespace Replicas

variable {F : Type} [Field F] [LinearOrder F] [IsStrictOrderedRing F] {n : Nat}
  {max : MaxIndex F n} {weight : Fin n → F} {r : Replicas n}

/-- Without its last replica, a replicated expert would carry the highest load. -/
structure Greedy (weight : Fin n → F) (r : Replicas n) : Prop where
  positive : ∀ e, 1 ≤ r.logcnt e
  last : ∀ e k, r.logcnt e = k + 1 → 1 ≤ k → ∀ j, weight j / r.logcnt j ≤ weight e / k

omit [IsStrictOrderedRing F] in
theorem greedy_init : (init n).Greedy weight := by
  refine ⟨fun _ => le_rfl, fun e k one positive => ?_⟩
  have : (1 : Nat) = k + 1 := one
  omega

theorem Greedy.add (nonneg : ∀ e, 0 ≤ weight e) (greedy : r.Greedy weight) :
    (r.add max weight).Greedy weight := by
  set redundant := max.pick fun e => weight e / r.logcnt e with isPick
  have highest : ∀ j, weight j / r.logcnt j ≤ weight redundant / r.logcnt redundant :=
    max.isMax fun e => weight e / r.logcnt e
  have grows : ∀ j, r.logcnt j ≤ (r.add max weight).logcnt j := by
    intro j
    by_cases same : j = redundant
    · simp [Replicas.add, same, ← isPick]
    · simp [Replicas.add, ← isPick, Function.update_of_ne same]
  have lower : ∀ j, weight j / (r.add max weight).logcnt j ≤ weight j / r.logcnt j := by
    intro j
    have positive : (0 : F) < r.logcnt j := Nat.cast_pos.mpr (greedy.positive j)
    exact div_le_div_of_nonneg_left (nonneg j) positive (Nat.cast_le.mpr (grows j))
  refine ⟨fun e => (greedy.positive e).trans (grows e), fun e k count positive j => ?_⟩
  by_cases same : e = redundant
  · have isCount : r.logcnt redundant = k := by
      simp only [Replicas.add, ← isPick, same, Function.update_self] at count
      omega
    calc weight j / (r.add max weight).logcnt j ≤ weight j / r.logcnt j := lower j
      _ ≤ weight redundant / r.logcnt redundant := highest j
      _ = weight e / k := by rw [same, isCount]
  · have isCount : r.logcnt e = k + 1 := by
      simpa only [Replicas.add, ← isPick, Function.update_of_ne same] using count
    exact (lower j).trans (greedy.last e k isCount positive j)

/-- One replica fewer of some expert means one more of another: no other counts with the same total
have a lower maximum. -/
theorem Greedy.le_maxLoad {weight : Fin (n + 1) → F} {r : Replicas (n + 1)}
    (nonneg : ∀ e, 0 ≤ weight e) (greedy : r.Greedy weight) {cnt : Fin (n + 1) → Nat}
    (positive : ∀ e, 1 ≤ cnt e) (sameTotal : ∑ e, cnt e = ∑ e, r.logcnt e) :
    maxLoad weight r.logcnt ≤ maxLoad weight cnt := by
  have below : ∀ e, weight e / cnt e ≤ maxLoad weight cnt := fun e =>
    Finset.le_sup' (fun e => weight e / (cnt e : F)) (Finset.mem_univ e)
  have fewer : ∀ e m, cnt e ≤ m → weight e / m ≤ maxLoad weight cnt := fun e m fewer =>
    (div_le_div_of_nonneg_left (nonneg e) (Nat.cast_pos.mpr (positive e))
      (Nat.cast_le.mpr fewer)).trans (below e)
  refine Finset.sup'_le _ _ fun e _ => ?_
  by_cases atMost : cnt e ≤ r.logcnt e
  · exact fewer e _ atMost
  · obtain ⟨other, -, less⟩ : ∃ other ∈ Finset.univ, cnt other < r.logcnt other := by
      by_contra none
      simp only [not_exists, not_and, Nat.not_lt] at none
      have more := Finset.sum_lt_sum none ⟨e, Finset.mem_univ e, Nat.not_le.mp atMost⟩
      omega
    obtain ⟨k, count⟩ : ∃ k, r.logcnt other = k + 1 := Nat.exists_eq_add_one.mpr (by omega)
    have atLeast := positive other
    exact (greedy.last other k count (by omega) e).trans (fewer other k (by omega))

omit [IsStrictOrderedRing F] in
theorem sum_logcnt_add : ∑ e, (r.add max weight).logcnt e = ∑ e, r.logcnt e + 1 := by
  simp only [Replicas.add]
  generalize (max.pick fun e => weight e / r.logcnt e) = redundant
  rw [Finset.sum_update_of_mem (Finset.mem_univ _), Finset.sdiff_singleton_eq_erase,
    ← Finset.add_sum_erase _ r.logcnt (Finset.mem_univ redundant)]
  omega

end Replicas

section

variable {F : Type} [Field F] [LinearOrder F] [IsStrictOrderedRing F] {n : Nat}

/-- Every expert gets a replica, the replicas are `num_phy`, and no other counts of as many replicas
have a lower highest load. -/
theorem replicateExperts_optimal (max : MaxIndex F (n + 1)) (weight : Fin (n + 1) → F)
    (nonneg : ∀ e, 0 ≤ weight e) {numPhy : Nat} (enough : n + 1 ≤ numPhy) :
    ∃ r, replicateExperts max weight numPhy = some r ∧ (∀ e, 1 ≤ r.logcnt e) ∧
      ∑ e, r.logcnt e = numPhy ∧
      ∀ cnt : Fin (n + 1) → Nat, (∀ e, 1 ≤ cnt e) → ∑ e, cnt e = numPhy →
        maxLoad weight r.logcnt ≤ maxLoad weight cnt := by
  have rounds : ∀ m, let r := (Replicas.add max weight)^[m] (.init (n + 1))
      r.Greedy weight ∧ ∑ e, r.logcnt e = n + 1 + m := by
    intro m
    induction m with
    | zero => exact ⟨Replicas.greedy_init, by simp [Replicas.init]⟩
    | succ m ih =>
      rw [Function.iterate_succ_apply']
      exact ⟨ih.1.add nonneg, Replicas.sum_logcnt_add.trans (congrArg (· + 1) ih.2)⟩
  obtain ⟨greedy, total⟩ := rounds (numPhy - (n + 1))
  rw [Nat.add_sub_cancel' enough] at total
  exact ⟨_, if_pos enough, greedy.positive, total, fun cnt positive sameTotal =>
    greedy.le_maxLoad nonneg positive (sameTotal.trans total.symm)⟩

end

/-- The first of the highest loads. -/
def firstMax : MaxIndex ℚ 2 where
  pick := fun load => if load 0 < load 1 then 1 else 0
  isMax := by
    intro load
    rw [Fin.forall_fin_two]
    split
    · rename_i lower
      exact ⟨lower.le, le_rfl⟩
    · rename_i notLower
      exact ⟨le_rfl, not_lt.mp notLower⟩

/-- Weights 6 and 2 with five replicas. -/
theorem replicateExperts_optimal_two :
    ∃ r, replicateExperts firstMax ![6, 2] 5 = some r ∧
      ∀ cnt : Fin 2 → Nat, (∀ e, 1 ≤ cnt e) → ∑ e, cnt e = 5 →
        maxLoad ![(6 : ℚ), 2] r.logcnt ≤ maxLoad ![6, 2] cnt := by
  have nonneg : ∀ e : Fin 2, (0 : ℚ) ≤ ![6, 2] e := by decide
  have enough : 2 ≤ 5 := by decide
  obtain ⟨r, returns, -, -, optimal⟩ := replicateExperts_optimal firstMax ![6, 2] nonneg enough
  exact ⟨r, returns, optimal⟩

end Kalypso.Engine
