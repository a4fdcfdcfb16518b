import Mathlib.Data.Rat.Floor
import Mathlib.Tactic.Linarith
import Kalypso.Lib.Dict

/-!
# The stage budget of `KVMemoryManager`

The dictionaries `_stage_capacity`, `_stage_min_capacity`, `_stage_max_capacity`,
`_stage_used` and `_stage_inflight` of `budget.py`, with the operations of the pipeline
side.  Capacities are products of the integer `_capacity` with fractions and are modelled by
exact rationals; used bytes and reservation counts are integers, as in the source.  Every
operation runs under `_cond` without an inner suspension, so each is one atomic function.
A missing key (`KeyError`) is `none`.
-/

set_option autoImplicit false

namespace Kalypso.Query

open Kalypso.Lib

abbrev StageId := Nat

structure KVMemoryManager where
  capacity : Int
  bytesPerToken : Nat
  stageCapacity : Dict StageId ℚ
  stageMinCapacity : Dict StageId ℚ
  stageMaxCapacity : Dict StageId ℚ
  stageUsed : Dict StageId Int
  stageInflight : Dict StageId Int

namespace KVMemoryManager

def init (kvCapacity : Int) (bytesPerToken : Nat) : KVMemoryManager where
  capacity := kvCapacity
  bytesPerToken := bytesPerToken
  stageCapacity := .empty
  stageMinCapacity := .empty
  stageMaxCapacity := .empty
  stageUsed := .empty
  stageInflight := .empty

/-- Registration overwrites every entry of the stage id, also one that is in use. -/
def registerStage (kv : KVMemoryManager) (stageId : StageId) (fraction : ℚ)
    (minFraction maxFraction : Option ℚ) (minCapacityBytes : Option Int) : KVMemoryManager :=
  let minFraction := minFraction.getD fraction
  let maxFraction := maxFraction.getD fraction
  let cap := kv.capacity * fraction
  let minCap := kv.capacity * minFraction
  let minCap := match minCapacityBytes with
    | none => minCap
    | some bytes => max minCap bytes
  { kv with
    stageCapacity := kv.stageCapacity.set stageId cap
    stageMinCapacity := kv.stageMinCapacity.set stageId (min minCap cap)
    stageMaxCapacity := kv.stageMaxCapacity.set stageId (kv.capacity * maxFraction)
    stageUsed := kv.stageUsed.set stageId 0
    stageInflight := kv.stageInflight.set stageId 0 }

/-- `none` is a `KeyError`; `some (false, _)` a refused reservation. -/
def tryAllocateStage (kv : KVMemoryManager) (stageId : StageId) (budget : Int) :
    Option (Bool × KVMemoryManager) := do
  let used ← kv.stageUsed.get? stageId
  let cap ← kv.stageCapacity.get? stageId
  if cap < used + budget then
    return (false, kv)
  let inflight ← kv.stageInflight.get? stageId
  return (true, { kv with
    stageUsed := kv.stageUsed.set stageId (used + budget)
    stageInflight := kv.stageInflight.set stageId (inflight + 1) })

def forceAllocateStage (kv : KVMemoryManager) (stageId : StageId) (budget : Int) :
    Option KVMemoryManager := do
  let used ← kv.stageUsed.get? stageId
  let inflight ← kv.stageInflight.get? stageId
  return { kv with
    stageUsed := kv.stageUsed.set stageId (used + budget)
    stageInflight := kv.stageInflight.set stageId (inflight + 1) }

def releaseStage (kv : KVMemoryManager) (stageId : StageId) (budget : Int) :
    Option KVMemoryManager := do
  let used ← kv.stageUsed.get? stageId
  let inflight ← kv.stageInflight.get? stageId
  return { kv with
    stageUsed := kv.stageUsed.set stageId (if used - budget < 0 then 0 else used - budget)
    stageInflight := kv.stageInflight.set stageId
      (if inflight - 1 < 0 then 0 else inflight - 1) }

def Registered (kv : KVMemoryManager) (stageId : StageId) : Prop :=
  (kv.stageUsed.get? stageId).isSome ∧ (kv.stageInflight.get? stageId).isSome ∧
    (kv.stageCapacity.get? stageId).isSome

instance (kv : KVMemoryManager) (stageId : StageId) : Decidable (kv.Registered stageId) :=
  inferInstanceAs (Decidable (_ ∧ _ ∧ _))

def used (kv : KVMemoryManager) (stageId : StageId) : Int := kv.stageUsed.getD stageId 0

def inflight (kv : KVMemoryManager) (stageId : StageId) : Int := kv.stageInflight.getD stageId 0

/-- A manager with three stages that may each use the whole capacity of 100 bytes. -/
def threeStages : KVMemoryManager :=
  let kv := (init 100 1).registerStage 1 1 none none none
  let kv := kv.registerStage 2 1 none none none
  kv.registerStage 3 1 none none none

/-! ## What the operations do to the two counters -/

/-- `kv'` records one more reservation of `budget` bytes on `stageId` than `kv`. -/
structure Reserves (kv kv' : KVMemoryManager) (stageId : StageId) (budget : Int) : Prop where
  used : ∀ s, kv'.used s = kv.used s + if s = stageId then budget else 0
  inflight : ∀ s, kv'.inflight s = kv.inflight s + if s = stageId then 1 else 0

/-- `kv'` records one reservation less; what is taken away is clamped at zero. -/
structure Releases (kv kv' : KVMemoryManager) (stageId : StageId) (budget : Int) : Prop where
  used : ∀ s, kv'.used s = if s = stageId then max 0 (kv.used s - budget) else kv.used s
  inflight : ∀ s, kv'.inflight s =
    if s = stageId then max 0 (kv.inflight s - 1) else kv.inflight s

def Extends (kv kv' : KVMemoryManager) : Prop :=
  ∀ s, kv.Registered s → kv'.Registered s

theorem Extends.trans {kv kv' kv'' : KVMemoryManager} (first : kv.Extends kv')
    (second : kv'.Extends kv'') : kv.Extends kv'' :=
  fun s registered => second s (first s registered)

theorem getD_set (d : Dict StageId Int) (stageId s : StageId) (v : Int) :
    (d.set stageId v).getD s 0 = if s = stageId then v else d.getD s 0 := by
  unfold Dict.getD
  rw [Dict.get?_set]
  split
  · rfl
  · rfl

theorem isSome_get?_set {ν : Type} (d : Dict StageId ν) (stageId s : StageId) (v : ν)
    (present : (d.get? s).isSome) : ((d.set stageId v).get? s).isSome := by
  rw [Dict.get?_set]
  split
  · rfl
  · exact present

section

variable (kv : KVMemoryManager) (stageId : StageId)

include kv stageId

theorem extends_set_counters (u i : Int) :
    kv.Extends { kv with
      stageUsed := kv.stageUsed.set stageId u
      stageInflight := kv.stageInflight.set stageId i } := by
  intro s registered
  exact ⟨isSome_get?_set _ _ _ _ registered.1, isSome_get?_set _ _ _ _ registered.2.1,
    registered.2.2⟩

theorem reserves_set_counters (budget u i : Int) (usedEq : kv.stageUsed.get? stageId = some u)
    (inflightEq : kv.stageInflight.get? stageId = some i) :
    Reserves kv { kv with
      stageUsed := kv.stageUsed.set stageId (u + budget)
      stageInflight := kv.stageInflight.set stageId (i + 1) } stageId budget where
  used := by
    intro s
    simp only [KVMemoryManager.used, getD_set]
    split
    · rename_i same
      simp [same, Dict.getD, usedEq]
    · simp
  inflight := by
    intro s
    simp only [KVMemoryManager.inflight, getD_set]
    split
    · rename_i same
      simp [same, Dict.getD, inflightEq]
    · simp

theorem tryAllocateStage_spec (budget : Int) (registered : kv.Registered stageId) :
    kv.tryAllocateStage stageId budget = some (false, kv) ∨
      ∃ kv', kv.tryAllocateStage stageId budget = some (true, kv') ∧
        Reserves kv kv' stageId budget ∧ kv.Extends kv' := by
  obtain ⟨hasUsed, hasInflight, hasCapacity⟩ := registered
  obtain ⟨u, usedEq⟩ := Option.isSome_iff_exists.mp hasUsed
  obtain ⟨i, inflightEq⟩ := Option.isSome_iff_exists.mp hasInflight
  obtain ⟨cap, capEq⟩ := Option.isSome_iff_exists.mp hasCapacity
  by_cases full : cap < u + budget
  · left
    simp [tryAllocateStage, usedEq, capEq, full]
  · right
    refine ⟨_, ?_, reserves_set_counters kv stageId budget u i usedEq inflightEq,
      extends_set_counters kv stageId _ _⟩
    simp [tryAllocateStage, usedEq, capEq, inflightEq, full]

theorem forceAllocateStage_spec (budget : Int) (registered : kv.Registered stageId) :
    ∃ kv', kv.forceAllocateStage stageId budget = some kv' ∧
      Reserves kv kv' stageId budget ∧ kv.Extends kv' := by
  obtain ⟨hasUsed, hasInflight, -⟩ := registered
  obtain ⟨u, usedEq⟩ := Option.isSome_iff_exists.mp hasUsed
  obtain ⟨i, inflightEq⟩ := Option.isSome_iff_exists.mp hasInflight
  refine ⟨_, ?_, reserves_set_counters kv stageId budget u i usedEq inflightEq,
    extends_set_counters kv stageId _ _⟩
  simp [forceAllocateStage, usedEq, inflightEq]

end

theorem clamp_eq_max (x : Int) : (if x < 0 then 0 else x) = max 0 x := by
  split
  · omega
  · omega

theorem releaseStage_spec (kv : KVMemoryManager) (stageId : StageId) (budget : Int)
    (registered : kv.Registered stageId) :
    ∃ kv', kv.releaseStage stageId budget = some kv' ∧
      Releases kv kv' stageId budget ∧ kv.Extends kv' := by
  obtain ⟨hasUsed, hasInflight, -⟩ := registered
  obtain ⟨u, usedEq⟩ := Option.isSome_iff_exists.mp hasUsed
  obtain ⟨i, inflightEq⟩ := Option.isSome_iff_exists.mp hasInflight
  refine ⟨_, by simp only [releaseStage, usedEq, inflightEq]; rfl, ⟨?_, ?_⟩,
    extends_set_counters kv stageId _ _⟩
  · intro s
    simp only [KVMemoryManager.used, getD_set, clamp_eq_max]
    split
    · rename_i same
      simp [same, Dict.getD, usedEq]
    · rfl
  · intro s
    simp only [KVMemoryManager.inflight, getD_set, clamp_eq_max]
    split
    · rename_i same
      simp [same, Dict.getD, inflightEq]
    · rfl

end KVMemoryManager

end Kalypso.Query
