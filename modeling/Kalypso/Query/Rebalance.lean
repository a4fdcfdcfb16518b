import Mathlib.Algebra.BigOperators.Ring.Finset
import Mathlib.Tactic.Linarith
import Mathlib.Tactic.Ring
import Kalypso.Lib.Trace
import Kalypso.Query.Pipeline
import Kalypso.Query.Plan

/-!
# Moving capacity between stages

`rebalance_stage_capacity` and `return_stage_capacity` of the memory manager, and the pass of
the executor that calls them for the stages of a segment.  A donor is looked for among all
registered stages, and returned capacity goes to the largest registered id, whatever segment or
query these stages belong to.
-/

set_option autoImplicit false

namespace Kalypso.Query

open Kalypso.Lib

variable {α : Type}

def truncate (x : ℚ) : Int := x.num.tdiv x.den

namespace KVMemoryManager

def quantumFraction : ℚ := 1 / 20

def quantum (kv : KVMemoryManager) (fraction : ℚ) : ℚ := max 1 (truncate (kv.capacity * fraction))

def capacityOf (kv : KVMemoryManager) (stageId : StageId) : ℚ := kv.stageCapacity.getD stageId 0

def minCapacityOf (kv : KVMemoryManager) (stageId : StageId) : ℚ :=
  kv.stageMinCapacity.getD stageId (kv.capacityOf stageId)

def maxCapacityOf (kv : KVMemoryManager) (stageId : StageId) : ℚ :=
  kv.stageMaxCapacity.getD stageId (kv.capacityOf stageId)

def lastStageId (kv : KVMemoryManager) : Option StageId := kv.stageCapacity.keys.max?

/-- The two assignments that move capacity; `none` is a `KeyError`. -/
def moveCapacity (donorId receiverId : StageId) (delta : ℚ) (kv : KVMemoryManager) :
    Option KVMemoryManager := do
  let donorCap ← kv.stageCapacity.get? donorId
  let lowered := kv.stageCapacity.set donorId (donorCap - delta)
  let receiverCap ← lowered.get? receiverId
  return { kv with stageCapacity := lowered.set receiverId (receiverCap + delta) }

def borrowable (kv : KVMemoryManager) (donorId : StageId) : ℚ :=
  kv.capacityOf donorId - max (kv.minCapacityOf donorId) (kv.used donorId)

def borrow (quantum : ℚ) (receiverId : StageId) (kv : KVMemoryManager) :
    List StageId → Option (Bool × KVMemoryManager)
  | [] => some (false, kv)
  | donorId :: rest =>
      let delta := min (min quantum (kv.borrowable donorId))
        (kv.maxCapacityOf receiverId - kv.capacityOf receiverId)
      if kv.borrowable donorId ≤ 0 then borrow quantum receiverId kv rest
      else if delta ≤ 0 then borrow quantum receiverId kv rest
      else (kv.moveCapacity donorId receiverId delta).map (true, ·)

def donorIds (receiverId : StageId) (donorHint : Option StageId) (kv : KVMemoryManager) :
    List StageId :=
  let hinted := donorHint.toList.filter fun id => id ≠ receiverId
  hinted ++ kv.stageCapacity.keys.filter fun id => id ∉ hinted ∧ id ≠ receiverId

def rebalanceStageCapacity (receiverId : StageId) (donorHint : Option StageId)
    (fraction : ℚ) (kv : KVMemoryManager) : Option (Bool × KVMemoryManager) :=
  if kv.maxCapacityOf receiverId ≤ kv.capacityOf receiverId then some (false, kv)
  else borrow (kv.quantum fraction) receiverId kv (kv.donorIds receiverId donorHint)

def releasable (kv : KVMemoryManager) (stageId : StageId) (forceReturn : Bool) : ℚ :=
  kv.capacityOf stageId - if forceReturn then (kv.used stageId : ℚ)
    else max (kv.minCapacityOf stageId) (kv.used stageId)

def returnStageCapacity (stageId : StageId) (fraction : ℚ) (forceReturn : Bool)
    (kv : KVMemoryManager) : Option (Bool × KVMemoryManager) :=
  if kv.releasable stageId forceReturn ≤ 0 then some (false, kv)
  else
    match kv.lastStageId with
    | none => some (false, kv)
    | some receiverId =>
        if receiverId = stageId then some (false, kv)
        else
          let growable := kv.maxCapacityOf receiverId - kv.capacityOf receiverId
          let delta :=
            min (min (kv.quantum fraction) (kv.releasable stageId forceReturn)) growable
          if growable ≤ 0 then some (false, kv)
          else if delta ≤ 0 then some (false, kv)
          else (kv.moveCapacity stageId receiverId delta).map (true, ·)

end KVMemoryManager

/-! ## The pass over a segment -/

/-- What the pass reads of a stage: the lengths of its queues and the thresholds that
`tune_thresholds` has set. -/
structure StageLoad where
  stageId : StageId
  readyCount : Nat
  runningCount : Nat
  lowThreshold : Int
  highThreshold : Int

namespace StageLoad

def isIdle (load : StageLoad) : Bool := load.readyCount == 0 && load.runningCount == 0

def isStarving (load : StageLoad) : Bool := (load.readyCount : Int) < load.lowThreshold

def isSaturated (load : StageLoad) : Bool := load.highThreshold < (load.readyCount : Int)

end StageLoad

def Stage.load (kv : KVMemoryManager) (stage : Stage α) (tasks : StageTasks α) : StageLoad :=
  let minBudget := truncate (kv.stageMinCapacity.getD stage.stageId 0)
  let minBudget := if minBudget ≤ 0 then max 1 (stage.bytesPerToken : Int) else minBudget
  let curCap := truncate (kv.capacityOf stage.stageId)
  { stageId := stage.stageId
    readyCount := tasks.waitingTasks.length
    runningCount := tasks.runningTasks.entries.length
    lowThreshold := max 1 ((curCap : ℚ) / 2 / minBudget).floor
    highThreshold := max 1 ((curCap : ℚ) / minBudget).floor }

open KVMemoryManager (quantumFraction)

def returnIdle (kv : KVMemoryManager) (load : StageLoad) : Option KVMemoryManager :=
  if load.isIdle then
    (kv.returnStageCapacity load.stageId quantumFraction true).map Prod.snd
  else some kv

/-- For a saturated stage the last one of the segment borrows, from the stage before it first. -/
def growSaturated (lastId : StageId) (kv : KVMemoryManager) (neighbours : StageLoad × StageLoad) :
    Option KVMemoryManager :=
  if neighbours.2.isSaturated then
    (kv.rebalanceStageCapacity lastId (some neighbours.1.stageId) quantumFraction).map Prod.snd
  else some kv

def feedUpstream (kv : KVMemoryManager) (neighbours : StageLoad × StageLoad) :
    Option KVMemoryManager :=
  if neighbours.2.isStarving && neighbours.1.readyCount != 0 then
    (kv.rebalanceStageCapacity neighbours.1.stageId (some neighbours.2.stageId)
      quantumFraction).map Prod.snd
  else some kv

def saturationLoop (loads : List StageLoad) (kv : KVMemoryManager) : Option KVMemoryManager :=
  match loads.getLast? with
  | none => some kv
  | some last => (loads.zip loads.tail).foldlM (growSaturated last.stageId) kv

/-- The loops of `rebalance_stage_capacity`, on what they read of the stages. -/
def rebalanceLoads (loads : List StageLoad) (kv : KVMemoryManager) : Option KVMemoryManager := do
  let kv ← loads.foldlM returnIdle kv
  let kv ← saturationLoop loads kv
  (loads.zip loads.tail).foldlM feedUpstream kv

def rebalancePass (stages : List (Stage α)) (tasks : List (StageTasks α)) (kv : KVMemoryManager) :
    Option KVMemoryManager :=
  rebalanceLoads (List.zipWith (Stage.load kv) stages tasks) kv

namespace KVMemoryManager

/-! ## Only capacities change -/

/-- `kv'` has other values for the capacities of `kv`, and nothing else is different. -/
def Reassigned (kv kv' : KVMemoryManager) : Prop :=
  ∃ f : StageId → ℚ → ℚ, kv' = { kv with stageCapacity := kv.stageCapacity.mapValues f }

namespace Reassigned

variable {kv kv' kv'' : KVMemoryManager}

theorem refl (kv : KVMemoryManager) : kv.Reassigned kv :=
  ⟨fun _ cap => cap, by rw [Dict.mapValues_id]⟩

theorem trans (first : kv.Reassigned kv') (second : kv'.Reassigned kv'') : kv.Reassigned kv'' := by
  obtain ⟨f, rfl⟩ := first
  obtain ⟨g, rfl⟩ := second
  exact ⟨fun id cap => g id (f id cap), by rw [Dict.mapValues_mapValues]⟩

theorem set {stageId : StageId} {old : ℚ} (cap : ℚ)
    (found : kv.stageCapacity.get? stageId = some old) :
    kv.Reassigned { kv with stageCapacity := kv.stageCapacity.set stageId cap } :=
  ⟨_, by rw [Dict.set_present _ _ found]⟩

theorem keys (moved : kv.Reassigned kv') : kv'.stageCapacity.keys = kv.stageCapacity.keys := by
  obtain ⟨f, rfl⟩ := moved
  exact Dict.keys_mapValues f kv.stageCapacity

theorem lastStageId (moved : kv.Reassigned kv') : kv'.lastStageId = kv.lastStageId := by
  unfold KVMemoryManager.lastStageId
  rw [moved.keys]

theorem borrowable {id : StageId} (moved : kv.Reassigned kv')
    (same : kv'.capacityOf id = kv.capacityOf id) : kv'.borrowable id = kv.borrowable id := by
  have others : kv'.stageMinCapacity = kv.stageMinCapacity ∧ kv'.used = kv.used := by
    obtain ⟨f, rfl⟩ := moved
    exact ⟨rfl, rfl⟩
  simp only [KVMemoryManager.borrowable, minCapacityOf, same, others.1, others.2]

theorem maxCapacityOf {id : StageId} (moved : kv.Reassigned kv')
    (same : kv'.capacityOf id = kv.capacityOf id) : kv'.maxCapacityOf id = kv.maxCapacityOf id := by
  have others : kv'.stageMaxCapacity = kv.stageMaxCapacity := by
    obtain ⟨f, rfl⟩ := moved
    rfl
  simp only [KVMemoryManager.maxCapacityOf, same, others]

end Reassigned

theorem capacityOf_set (kv : KVMemoryManager) (stageId id : StageId) (cap : ℚ) :
    capacityOf { kv with stageCapacity := kv.stageCapacity.set stageId cap } id =
      if id = stageId then cap else kv.capacityOf id := by
  unfold capacityOf Dict.getD
  rw [Dict.get?_set]
  split
  · rfl
  · rfl

theorem capacityOf_of_get? (kv : KVMemoryManager) {id : StageId} {cap : ℚ}
    (found : kv.stageCapacity.get? id = some cap) : kv.capacityOf id = cap := by
  simp [capacityOf, Dict.getD, found]

theorem moveCapacity_spec {kv kv' : KVMemoryManager} {donorId receiverId : StageId} {delta : ℚ}
    (moved : kv.moveCapacity donorId receiverId delta = some kv') :
    kv.Reassigned kv' ∧ ∀ id, kv'.capacityOf id =
      kv.capacityOf id - (if id = donorId then delta else 0) +
        (if id = receiverId then delta else 0) := by
  unfold moveCapacity at moved
  obtain ⟨donorCap, donorFound, moved⟩ := Option.bind_eq_some_iff.mp moved
  obtain ⟨receiverCap, receiverFound, moved⟩ := Option.bind_eq_some_iff.mp moved
  cases moved
  have lowered := capacityOf_set kv donorId
  have raised := capacityOf_set
    { kv with stageCapacity := kv.stageCapacity.set donorId (donorCap - delta) } receiverId
  have donorIs := capacityOf_of_get? kv donorFound
  have receiverIs := capacityOf_of_get?
    { kv with stageCapacity := kv.stageCapacity.set donorId (donorCap - delta) } receiverFound
  refine ⟨(Reassigned.set _ donorFound).trans (Reassigned.set _ receiverFound), ?_⟩
  intro id
  rw [raised, lowered]
  rw [lowered] at receiverIs
  by_cases isReceiver : id = receiverId
  · subst isReceiver
    rw [if_pos rfl, if_pos rfl, ← receiverIs]
    split
    · rename_i isDonor
      rw [isDonor, donorIs]
    · ring
  · rw [if_neg isReceiver, if_neg isReceiver]
    split
    · rename_i isDonor
      rw [isDonor, donorIs]
      ring
    · ring

/-! ## A pass over registered stages returns -/

variable {kv : KVMemoryManager}

theorem isSome_get?_of_mem_keys {id : StageId} (registered : id ∈ kv.stageCapacity.keys) :
    (kv.stageCapacity.get? id).isSome := by
  rw [Option.isSome_iff_ne_none]
  intro absent
  exact (Dict.get?_eq_none_iff _ _).mp absent registered

theorem moveCapacity_returns {donorId receiverId : StageId}
    (donor : donorId ∈ kv.stageCapacity.keys) (receiver : receiverId ∈ kv.stageCapacity.keys)
    (delta : ℚ) :
    ∃ kv', kv.moveCapacity donorId receiverId delta = some kv' ∧ kv.Reassigned kv' := by
  obtain ⟨donorCap, donorFound⟩ := Option.isSome_iff_exists.mp (isSome_get?_of_mem_keys donor)
  have present := isSome_get?_set _ donorId receiverId (donorCap - delta)
    (isSome_get?_of_mem_keys receiver)
  obtain ⟨receiverCap, receiverFound⟩ := Option.isSome_iff_exists.mp present
  obtain ⟨kv', moved⟩ : ∃ kv', kv.moveCapacity donorId receiverId delta = some kv' := by
    simp [moveCapacity, donorFound, receiverFound]
  exact ⟨kv', moved, (moveCapacity_spec moved).1⟩

/-! ## What a call can do -/

/-- `delta` bytes from a stage that can spare `spare` fit into the receiver. -/
structure Loan (kv : KVMemoryManager) (spare : ℚ) (receiverId : StageId) (delta : ℚ) : Prop where
  positive : 0 < delta
  spared : delta ≤ spare
  fits : kv.capacityOf receiverId + delta ≤ kv.maxCapacityOf receiverId

theorem loan_of_min {quantum spare : ℚ} {receiverId : StageId} (positive : ¬ min (min quantum spare)
      (kv.maxCapacityOf receiverId - kv.capacityOf receiverId) ≤ 0) :
    Loan kv spare receiverId
      (min (min quantum spare) (kv.maxCapacityOf receiverId - kv.capacityOf receiverId)) where
  positive := not_le.mp positive
  spared := (min_le_left _ _).trans (min_le_right _ _)
  fits := le_sub_iff_add_le'.mp (min_le_right _ _)

theorem quantum_pos (kv : KVMemoryManager) (fraction : ℚ) : 0 < kv.quantum fraction :=
  lt_of_lt_of_le one_pos (le_max_left _ _)

theorem borrow_cases {quantum : ℚ} (positive : 0 < quantum) {receiverId : StageId}
    (room : kv.capacityOf receiverId < kv.maxCapacityOf receiverId) :
    ∀ donors : List StageId,
      (borrow quantum receiverId kv donors = some (false, kv) ∧
        ∀ id ∈ donors, kv.borrowable id ≤ 0) ∨
      ∃ donorId ∈ donors, ∃ delta, Loan kv (kv.borrowable donorId) receiverId delta ∧
        borrow quantum receiverId kv donors =
          (kv.moveCapacity donorId receiverId delta).map (true, ·) := by
  intro donors
  induction donors with
  | nil => exact .inl ⟨rfl, fun id member => nomatch member⟩
  | cons donorId rest ih =>
    simp only [borrow]
    split
    · rename_i spent
      rcases ih with ⟨same, none⟩ | ⟨other, member, delta, loan, moved⟩
      · refine .inl ⟨same, ?_⟩
        intro id member
        rcases List.mem_cons.mp member with rfl | later
        · exact spent
        · exact none id later
      · exact .inr ⟨other, List.mem_cons_of_mem _ member, delta, loan, moved⟩
    · rename_i spares
      -- the quantum and the room are positive, so the donor decides
      rw [if_neg (not_le.mpr (lt_min (lt_min positive (not_le.mp spares)) (sub_pos.mpr room)))]
      refine .inr ⟨donorId, List.mem_cons_self, _, loan_of_min ?_, rfl⟩
      exact not_le.mpr (lt_min (lt_min positive (not_le.mp spares)) (sub_pos.mpr room))

theorem mem_donorIds {receiverId id : StageId} {hint : Option StageId} :
    id ∈ kv.donorIds receiverId hint ↔
      (hint = some id ∨ id ∈ kv.stageCapacity.keys) ∧ id ≠ receiverId := by
  by_cases hinted : hint = some id
  · simp [donorIds, hinted]
  · simp [donorIds, hinted]

/-- A rebalancing call: nothing happens because the receiver is full or no donor can spare
anything, or one donor gives. -/
theorem rebalanceStageCapacity_cases (kv : KVMemoryManager) (receiverId : StageId)
    (hint : Option StageId) (fraction : ℚ) :
    (kv.rebalanceStageCapacity receiverId hint fraction = some (false, kv) ∧
      (kv.maxCapacityOf receiverId ≤ kv.capacityOf receiverId ∨
        ∀ id ∈ kv.donorIds receiverId hint, kv.borrowable id ≤ 0)) ∨
    ∃ donorId ∈ kv.donorIds receiverId hint, ∃ delta,
      Loan kv (kv.borrowable donorId) receiverId delta ∧
      kv.rebalanceStageCapacity receiverId hint fraction =
        (kv.moveCapacity donorId receiverId delta).map (true, ·) := by
  unfold rebalanceStageCapacity
  split
  · rename_i full
    exact .inl ⟨rfl, .inl full⟩
  · rename_i room
    rcases borrow_cases (kv.quantum_pos fraction) (not_le.mp room)
        (kv.donorIds receiverId hint) with ⟨same, none⟩ | moved
    · exact .inl ⟨same, .inr none⟩
    · exact .inr moved

theorem returnStageCapacity_cases (kv : KVMemoryManager) (stageId : StageId) (fraction : ℚ)
    (forced : Bool) :
    kv.returnStageCapacity stageId fraction forced = some (false, kv) ∨
    ∃ receiverId, kv.lastStageId = some receiverId ∧ ∃ delta,
      Loan kv (kv.releasable stageId forced) receiverId delta ∧
      kv.returnStageCapacity stageId fraction forced =
        (kv.moveCapacity stageId receiverId delta).map (true, ·) := by
  simp only [returnStageCapacity]
  split
  · exact .inl rfl
  · split
    · exact .inl rfl
    · rename_i receiverId isLast
      split
      · exact .inl rfl
      · split
        · exact .inl rfl
        · split
          · exact .inl rfl
          · rename_i positive
            exact .inr ⟨receiverId, isLast, _, loan_of_min positive, rfl⟩

theorem rebalanceStageCapacity_returns {receiverId hint : StageId} (fraction : ℚ)
    (receiver : receiverId ∈ kv.stageCapacity.keys) (hinted : hint ∈ kv.stageCapacity.keys) :
    ∃ changed kv', kv.rebalanceStageCapacity receiverId (some hint) fraction =
      some (changed, kv') ∧ kv.Reassigned kv' := by
  rcases kv.rebalanceStageCapacity_cases receiverId (some hint) fraction with
    ⟨same, -⟩ | ⟨donorId, member, delta, -, moves⟩
  · exact ⟨false, kv, same, .refl kv⟩
  · have donor : donorId ∈ kv.stageCapacity.keys := by
      rcases (mem_donorIds.mp member).1 with isHint | registered
      · cases isHint
        exact hinted
      · exact registered
    obtain ⟨kv', moved, reassigned⟩ := moveCapacity_returns donor receiver delta
    exact ⟨true, kv', by rw [moves, moved, Option.map_some], reassigned⟩

theorem returnStageCapacity_returns {stageId : StageId} (fraction : ℚ) (forced : Bool)
    (registered : stageId ∈ kv.stageCapacity.keys) :
    ∃ changed kv', kv.returnStageCapacity stageId fraction forced = some (changed, kv') ∧
      kv.Reassigned kv' := by
  rcases kv.returnStageCapacity_cases stageId fraction forced with
    same | ⟨receiverId, isLast, delta, -, moves⟩
  · exact ⟨false, kv, same, .refl kv⟩
  · obtain ⟨kv', moved, reassigned⟩ :=
      moveCapacity_returns registered (List.max?_mem isLast) delta
    exact ⟨true, kv', by rw [moves, moved, Option.map_some], reassigned⟩

/-! ## Moves inside a segment -/

def segmentCapacity (kv : KVMemoryManager) (ids : List StageId) : ℚ :=
  ∑ id ∈ ids.toFinset, kv.capacityOf id

structure Inside (ids : List StageId) (kv kv' : KVMemoryManager) : Prop where
  reassigned : kv.Reassigned kv'
  total : kv'.segmentCapacity ids = kv.segmentCapacity ids
  outside : ∀ id, id ∉ ids → kv'.capacityOf id = kv.capacityOf id

/-- No stage outside of `ids` has capacity to spare, and if the one that gets returned
capacity is outside it is full. -/
structure Closed (ids : List StageId) (kv : KVMemoryManager) : Prop where
  spare : ∀ id ∈ kv.stageCapacity.keys, id ∉ ids → kv.borrowable id ≤ 0
  last : ∀ id, kv.lastStageId = some id → id ∉ ids → kv.maxCapacityOf id ≤ kv.capacityOf id

section Segment

variable {ids : List StageId} {kv kv' kv'' : KVMemoryManager}

theorem Inside.refl (ids : List StageId) (kv : KVMemoryManager) : Inside ids kv kv :=
  ⟨.refl kv, rfl, fun _ _ => rfl⟩

theorem Inside.trans (first : Inside ids kv kv') (second : Inside ids kv' kv'') :
    Inside ids kv kv'' where
  reassigned := first.reassigned.trans second.reassigned
  total := second.total.trans first.total
  outside := fun id out => (second.outside id out).trans (first.outside id out)

/-- Whether other stages can take part does not depend on how the segment divides its
capacity. -/
theorem Closed.inside (closed : Closed ids kv) (moved : Inside ids kv kv') : Closed ids kv' where
  spare := by
    intro id registered out
    rw [moved.reassigned.keys] at registered
    rw [moved.reassigned.borrowable (moved.outside id out)]
    exact closed.spare id registered out
  last := by
    intro id isLast out
    rw [moved.reassigned.lastStageId] at isLast
    rw [moved.reassigned.maxCapacityOf (moved.outside id out), moved.outside id out]
    exact closed.last id isLast out

theorem moveCapacity_inside {donorId receiverId : StageId} {delta : ℚ} (donor : donorId ∈ ids)
    (receiver : receiverId ∈ ids) (moved : kv.moveCapacity donorId receiverId delta = some kv') :
    Inside ids kv kv' := by
  obtain ⟨reassigned, capacity⟩ := moveCapacity_spec moved
  refine ⟨reassigned, ?_, ?_⟩
  · simp [segmentCapacity, capacity, Finset.sum_add_distrib, Finset.sum_sub_distrib, donor,
      receiver]
  · intro id out
    have notDonor : id ≠ donorId := fun same => out (same ▸ donor)
    have notReceiver : id ≠ receiverId := fun same => out (same ▸ receiver)
    rw [capacity, if_neg notDonor, if_neg notReceiver]
    ring

theorem rebalanceStageCapacity_inside {receiverId hint : StageId} {fraction : ℚ} {changed : Bool}
    (closed : Closed ids kv) (receiver : receiverId ∈ ids) (hinted : hint ∈ ids)
    (done : kv.rebalanceStageCapacity receiverId (some hint) fraction = some (changed, kv')) :
    Inside ids kv kv' := by
  rcases kv.rebalanceStageCapacity_cases receiverId (some hint) fraction with
    ⟨same, -⟩ | ⟨donorId, member, delta, loan, moves⟩
  · rw [same] at done
    cases done
    exact .refl ids kv
  · rw [moves] at done
    obtain ⟨moved, found, same⟩ := Option.map_eq_some_iff.mp done
    cases same
    have donor : donorId ∈ ids := by
      rcases (mem_donorIds.mp member).1 with isHint | registered
      · cases isHint
        exact hinted
      · by_contra out
        have nothing := closed.spare donorId registered out
        exact absurd (loan.spared.trans nothing) (not_le.mpr loan.positive)
    exact moveCapacity_inside donor receiver found

theorem returnStageCapacity_inside {stageId : StageId} {fraction : ℚ} {forced changed : Bool}
    (closed : Closed ids kv) (own : stageId ∈ ids)
    (done : kv.returnStageCapacity stageId fraction forced = some (changed, kv')) :
    Inside ids kv kv' := by
  rcases kv.returnStageCapacity_cases stageId fraction forced with
    same | ⟨receiverId, isLast, delta, loan, moves⟩
  · rw [same] at done
    cases done
    exact .refl ids kv
  · rw [moves] at done
    obtain ⟨moved, found, same⟩ := Option.map_eq_some_iff.mp done
    cases same
    have receiver : receiverId ∈ ids := by
      by_contra out
      have full := closed.last receiverId isLast out
      have fits := loan.fits
      have positive := loan.positive
      linarith
    exact moveCapacity_inside own receiver found

end Segment

end KVMemoryManager

section Pass

open KVMemoryManager

variable {ids : List StageId} {kv kv' : KVMemoryManager}

theorem returnIdle_inside {load : StageLoad} (closed : Closed ids kv) (own : load.stageId ∈ ids)
    (done : returnIdle kv load = some kv') : Inside ids kv kv' := by
  unfold returnIdle at done
  split at done
  · obtain ⟨⟨changed, after⟩, returned, same⟩ := Option.map_eq_some_iff.mp done
    cases same
    exact returnStageCapacity_inside closed own returned
  · cases done
    exact .refl ids kv

theorem growSaturated_inside {lastId : StageId} {neighbours : StageLoad × StageLoad}
    (closed : Closed ids kv) (last : lastId ∈ ids) (own : neighbours.1.stageId ∈ ids)
    (done : growSaturated lastId kv neighbours = some kv') : Inside ids kv kv' := by
  unfold growSaturated at done
  split at done
  · obtain ⟨⟨changed, after⟩, moved, same⟩ := Option.map_eq_some_iff.mp done
    cases same
    exact rebalanceStageCapacity_inside closed last own moved
  · cases done
    exact .refl ids kv

theorem feedUpstream_inside {neighbours : StageLoad × StageLoad} (closed : Closed ids kv)
    (upstream : neighbours.1.stageId ∈ ids) (own : neighbours.2.stageId ∈ ids)
    (done : feedUpstream kv neighbours = some kv') : Inside ids kv kv' := by
  unfold feedUpstream at done
  split at done
  · obtain ⟨⟨changed, after⟩, moved, same⟩ := Option.map_eq_some_iff.mp done
    cases same
    exact rebalanceStageCapacity_inside closed upstream own moved
  · cases done
    exact .refl ids kv

theorem inside_of_foldlM {ι : Type} {next : KVMemoryManager → ι → Option KVMemoryManager}
    {items : List ι} (closed : Closed ids kv)
    (stays : ∀ item ∈ items, ∀ before after, Closed ids before →
      next before item = some after → Inside ids before after)
    (done : items.foldlM next kv = some kv') : Inside ids kv kv' := by
  have run := Trace.of_foldlM done
  refine run.invariant_of (A := fun item => item ∈ items) ?_ (fun _ member => member)
    (Inside.refl ids kv)
  intro before item after member step inside
  exact inside.trans (stays item member before after (closed.inside inside) step)

theorem rebalanceLoads_inside {loads : List StageLoad} (closed : Closed ids kv)
    (own : ∀ load ∈ loads, load.stageId ∈ ids) (done : rebalanceLoads loads kv = some kv') :
    Inside ids kv kv' := by
  have neighboursOwn : ∀ pair ∈ loads.zip loads.tail,
      pair.1.stageId ∈ ids ∧ pair.2.stageId ∈ ids := by
    intro pair member
    obtain ⟨first, second⟩ := List.of_mem_zip member
    exact ⟨own pair.1 first, own pair.2 (List.mem_of_mem_tail second)⟩
  unfold rebalanceLoads at done
  obtain ⟨returned, idle, done⟩ := Option.bind_eq_some_iff.mp done
  obtain ⟨grown, saturated, starving⟩ := Option.bind_eq_some_iff.mp done
  have first : Inside ids kv returned :=
    inside_of_foldlM closed
      (fun load member _ _ before step => returnIdle_inside before (own load member) step) idle
  have second : Inside ids returned grown := by
    unfold saturationLoop at saturated
    cases isLast : loads.getLast? with
    | none =>
      rw [isLast] at saturated
      cases saturated
      exact .refl ids _
    | some last =>
      rw [isLast] at saturated
      have lastOwn := own last (List.mem_of_getLast? isLast)
      refine inside_of_foldlM (closed.inside first) ?_ saturated
      intro pair member _ _ before step
      exact growSaturated_inside before lastOwn (neighboursOwn pair member).1 step
  have third : Inside ids grown kv' := by
    refine inside_of_foldlM ((closed.inside first).inside second) ?_ starving
    intro pair member _ _ before step
    exact feedUpstream_inside before (neighboursOwn pair member).1 (neighboursOwn pair member).2
      step
  exact (first.trans second).trans third

theorem rebalancePass_inside {stages : List (Stage α)} {tasks : List (StageTasks α)}
    (closed : Closed (stages.map Stage.stageId) kv)
    (done : rebalancePass stages tasks kv = some kv') :
    Inside (stages.map Stage.stageId) kv kv' := by
  refine rebalanceLoads_inside closed ?_ done
  intro load member
  rw [← List.map_uncurry_zip_eq_zipWith, List.mem_map] at member
  obtain ⟨⟨stage, own⟩, member, rfl⟩ := member
  exact List.mem_map_of_mem (List.of_mem_zip member).1

theorem returnIdle_returns {load : StageLoad} (registered : load.stageId ∈ kv.stageCapacity.keys) :
    ∃ kv', returnIdle kv load = some kv' ∧ kv.Reassigned kv' := by
  unfold returnIdle
  split
  · obtain ⟨changed, kv', returned, reassigned⟩ :=
      returnStageCapacity_returns quantumFraction true registered
    exact ⟨kv', by rw [returned, Option.map_some], reassigned⟩
  · exact ⟨kv, rfl, .refl kv⟩

theorem rebalanceIf_returns {receiverId hint : StageId} (wanted : Bool)
    (receiver : receiverId ∈ kv.stageCapacity.keys) (hinted : hint ∈ kv.stageCapacity.keys) :
    ∃ kv', (if wanted then
        (kv.rebalanceStageCapacity receiverId (some hint) quantumFraction).map Prod.snd
      else some kv) = some kv' ∧ kv.Reassigned kv' := by
  split
  · obtain ⟨changed, kv', moved, reassigned⟩ := rebalanceStageCapacity_returns _ receiver hinted
    exact ⟨kv', by rw [moved, Option.map_some], reassigned⟩
  · exact ⟨kv, rfl, .refl kv⟩

theorem returns_of_foldlM {ι : Type} {next : KVMemoryManager → ι → Option KVMemoryManager}
    {items : List ι} (steps : ∀ item ∈ items, ∀ before, kv.Reassigned before →
      ∃ after, next before item = some after ∧ before.Reassigned after) :
    ∃ kv', items.foldlM next kv = some kv' ∧ kv.Reassigned kv' := by
  refine Trace.exists_foldlM ?_ (.refl kv)
  intro item member before reassigned
  obtain ⟨after, step, further⟩ := steps item member before reassigned
  exact ⟨after, step, reassigned.trans further⟩

theorem rebalanceLoads_returns {loads : List StageLoad}
    (registered : ∀ load ∈ loads, load.stageId ∈ kv.stageCapacity.keys) :
    ∃ kv', rebalanceLoads loads kv = some kv' ∧ kv.Reassigned kv' := by
  have stillRegistered : ∀ before, kv.Reassigned before → ∀ load ∈ loads,
      load.stageId ∈ before.stageCapacity.keys := by
    intro before reassigned load member
    rw [reassigned.keys]
    exact registered load member
  obtain ⟨returned, idle, first⟩ : ∃ returned,
      loads.foldlM returnIdle kv = some returned ∧ kv.Reassigned returned :=
    returns_of_foldlM fun load member before reassigned =>
      returnIdle_returns (stillRegistered before reassigned load member)
  obtain ⟨grown, saturated, second⟩ : ∃ grown,
      saturationLoop loads returned = some grown ∧ returned.Reassigned grown := by
    unfold saturationLoop
    cases isLast : loads.getLast? with
    | none => exact ⟨returned, rfl, .refl returned⟩
    | some last =>
      apply returns_of_foldlM
      intro pair member before reassigned
      have present := stillRegistered before (first.trans reassigned)
      exact rebalanceIf_returns _ (present last (List.mem_of_getLast? isLast))
        (present pair.1 (List.of_mem_zip member).1)
  obtain ⟨fed, starving, third⟩ : ∃ fed,
      (loads.zip loads.tail).foldlM feedUpstream grown = some fed ∧ grown.Reassigned fed := by
    apply returns_of_foldlM
    intro pair member before reassigned
    have present := stillRegistered before ((first.trans second).trans reassigned)
    obtain ⟨upstream, own⟩ := List.of_mem_zip member
    exact rebalanceIf_returns _ (present pair.1 upstream)
      (present pair.2 (List.mem_of_mem_tail own))
  refine ⟨fed, ?_, (first.trans second).trans third⟩
  simp only [rebalanceLoads, idle, saturated, Option.bind_eq_bind, Option.bind_some]
  exact starving

/-- A pass over registered stages is one of the rebalancing choices of the executor. -/
theorem rebalancePass_eq_rebalance {stages : List (Stage α)} (tasks : List (StageTasks α))
    (choice : Choice) (registered : ∀ stage ∈ stages, stage.stageId ∈ kv.stageCapacity.keys) :
    ∃ rebalanced, rebalancePass stages tasks kv =
      some (rebalance { choice with rebalanced := rebalanced } kv) := by
  obtain ⟨kv', passed, f, rfl⟩ : ∃ kv', rebalancePass stages tasks kv = some kv' ∧
      kv.Reassigned kv' := by
    apply rebalanceLoads_returns
    intro load member
    rw [← List.map_uncurry_zip_eq_zipWith, List.mem_map] at member
    obtain ⟨⟨stage, own⟩, member, rfl⟩ := member
    exact registered stage (List.of_mem_zip member).1
  exact ⟨f, passed⟩

end Pass

/-! ## Execution of a segment -/

inductive SegmentCall (α : Type) where
  | pass (tasks : List (StageTasks α))
  | tryAllocate (stageId : StageId) (budget : Int)
  | forceAllocate (stageId : StageId) (budget : Int)
  | release (stageId : StageId) (budget : Int)

def SegmentCall.target : SegmentCall α → Option StageId
  | .pass _ => none
  | .tryAllocate stageId _ => some stageId
  | .forceAllocate stageId _ => some stageId
  | .release stageId _ => some stageId

def SegmentCall.perform (stages : List (Stage α)) (kv : KVMemoryManager) :
    SegmentCall α → Option KVMemoryManager
  | .pass tasks => rebalancePass stages tasks kv
  | .tryAllocate stageId budget => (kv.tryAllocateStage stageId budget).map Prod.snd
  | .forceAllocate stageId budget => kv.forceAllocateStage stageId budget
  | .release stageId budget => kv.releaseStage stageId budget

/-- The executor of a segment reserves and releases only on its own stages. -/
def SegmentStep (stages : List (Stage α)) (kv : KVMemoryManager) (call : SegmentCall α)
    (kv' : KVMemoryManager) : Prop :=
  (∀ stageId ∈ call.target, stageId ∈ stages.map Stage.stageId) ∧
    call.perform stages kv = some kv'

namespace KVMemoryManager

def Counts (stageId : StageId) (kv kv' : KVMemoryManager) : Prop :=
  ∃ used inflight, kv' = { kv with stageUsed := used, stageInflight := inflight } ∧
    ∀ id, id ≠ stageId → used.getD id 0 = kv.used id

variable {kv kv' : KVMemoryManager} {stageId : StageId} {budget : Int}

theorem counts_set (kv : KVMemoryManager) (stageId : StageId) (used : Int)
    (inflight : Dict StageId Int) :
    Counts stageId kv
      { kv with stageUsed := kv.stageUsed.set stageId used, stageInflight := inflight } := by
  refine ⟨_, _, rfl, ?_⟩
  intro id other
  rw [getD_set, if_neg other]
  rfl

theorem tryAllocateStage_counts {accepted : Bool}
    (done : kv.tryAllocateStage stageId budget = some (accepted, kv')) : Counts stageId kv kv' := by
  unfold tryAllocateStage at done
  obtain ⟨used, -, done⟩ := Option.bind_eq_some_iff.mp done
  obtain ⟨cap, -, done⟩ := Option.bind_eq_some_iff.mp done
  split at done
  · cases done
    exact ⟨kv.stageUsed, kv.stageInflight, rfl, fun _ _ => rfl⟩
  · obtain ⟨inflight, -, done⟩ := Option.bind_eq_some_iff.mp done
    cases done
    exact counts_set kv stageId _ _

theorem forceAllocateStage_counts (done : kv.forceAllocateStage stageId budget = some kv') :
    Counts stageId kv kv' := by
  unfold forceAllocateStage at done
  obtain ⟨used, -, done⟩ := Option.bind_eq_some_iff.mp done
  obtain ⟨inflight, -, done⟩ := Option.bind_eq_some_iff.mp done
  cases done
  exact counts_set kv stageId _ _

theorem releaseStage_counts (done : kv.releaseStage stageId budget = some kv') :
    Counts stageId kv kv' := by
  unfold releaseStage at done
  obtain ⟨used, -, done⟩ := Option.bind_eq_some_iff.mp done
  obtain ⟨inflight, -, done⟩ := Option.bind_eq_some_iff.mp done
  cases done
  exact counts_set kv stageId _ _

theorem Closed.counts {ids : List StageId} (closed : Closed ids kv) (own : stageId ∈ ids)
    (counted : Counts stageId kv kv') : Closed ids kv' := by
  obtain ⟨used, inflight, rfl, others⟩ := counted
  refine ⟨?_, closed.last⟩
  intro id registered out
  have other : id ≠ stageId := fun same => out (same ▸ own)
  have before := closed.spare id registered out
  unfold borrowable KVMemoryManager.used at before ⊢
  rw [others id other]
  exact before

end KVMemoryManager

open KVMemoryManager in
theorem segmentStep_cases {stages : List (Stage α)} {kv kv' : KVMemoryManager}
    {call : SegmentCall α} (step : SegmentStep stages kv call kv') :
    (∃ tasks, rebalancePass stages tasks kv = some kv') ∨
      ∃ stageId ∈ stages.map Stage.stageId, Counts stageId kv kv' := by
  obtain ⟨own, done⟩ := step
  cases call with
  | pass tasks => exact .inl ⟨tasks, done⟩
  | tryAllocate stageId budget =>
    obtain ⟨⟨accepted, after⟩, allocated, same⟩ := Option.map_eq_some_iff.mp done
    cases same
    exact .inr ⟨stageId, own stageId rfl, tryAllocateStage_counts allocated⟩
  | forceAllocate stageId budget =>
    exact .inr ⟨stageId, own stageId rfl, forceAllocateStage_counts done⟩
  | release stageId budget =>
    exact .inr ⟨stageId, own stageId rfl, releaseStage_counts done⟩

/-- What stays true while a segment is executed from the state `start`. -/
structure Kept (ids : List StageId) (start kv : KVMemoryManager) : Prop where
  closed : kv.Closed ids
  total : kv.segmentCapacity ids = start.segmentCapacity ids
  outside : ∀ id, id ∉ ids → kv.capacityOf id = start.capacityOf id

theorem Kept.step {stages : List (Stage α)} {start kv kv' : KVMemoryManager}
    {call : SegmentCall α} (kept : Kept (stages.map Stage.stageId) start kv)
    (step : SegmentStep stages kv call kv') : Kept (stages.map Stage.stageId) start kv' := by
  rcases segmentStep_cases step with ⟨tasks, passed⟩ | ⟨stageId, own, counted⟩
  · have inside := rebalancePass_inside kept.closed passed
    refine ⟨kept.closed.inside inside, inside.total.trans kept.total, ?_⟩
    intro id out
    rw [inside.outside id out, kept.outside id out]
  · have closed := kept.closed.counts own counted
    obtain ⟨used, inflight, rfl, -⟩ := counted
    exact ⟨closed, kept.total, kept.outside⟩

/-- Executing a segment moves capacity between its own stages only, if no other registered stage
can spare capacity and returned capacity cannot go to another one. -/
theorem segmentCapacity_kept (stages : List (Stage α)) (start kv : KVMemoryManager)
    (calls : List (SegmentCall α)) (closed : start.Closed (stages.map Stage.stageId))
    (run : Trace (SegmentStep stages) start calls kv) :
    kv.segmentCapacity (stages.map Stage.stageId) =
        start.segmentCapacity (stages.map Stage.stageId) ∧
      ∀ id, id ∉ stages.map Stage.stageId → kv.capacityOf id = start.capacityOf id := by
  have kept : Kept (stages.map Stage.stageId) start kv :=
    run.invariant (fun _ _ _ step before => before.step step) ⟨closed, rfl, fun _ _ => rfl⟩
  exact ⟨kept.total, kept.outside⟩

def oneContext : BuildEnv Unit := ⟨[⟨(), none⟩], fun _ => none, id⟩

def twoStages : List (BaseOp Unit) :=
  [.tuple (passOp Unit), .join (productOp Unit 2), .tuple (passOp Unit)]

/-- The segments of a plan on a fresh manager of 100 bytes, and the manager afterwards. -/
def plannedSegments (operators : List (BaseOp Unit)) : List (List (Stage Unit)) × KVMemoryManager :=
  match build oneContext (.init 100 1) operators with
  | .error (.zeroDivision kv) => ([], kv)
  | .ok (plan, kv) =>
      (plan.filterMap fun
        | .segment stages => some stages
        | _ => none, kv)

def waitingUpstream : List (StageTasks Unit) :=
  [⟨[{ ctx := ⟨(), none⟩, stageIndex := 0, taskId := 0 }], .empty⟩, ⟨[], .empty⟩]

/-- The first pass over the first of the planned segments, with the capacity of the segment
before and after. -/
def firstPass (operators : List (BaseOp Unit)) :
    Option (List (Stage Unit) × KVMemoryManager × ℚ × ℚ) := do
  let (segments, kv) := plannedSegments operators
  let stages ← segments.head?
  let kv' ← rebalancePass stages waitingUpstream kv
  let ids := stages.map Stage.stageId
  return (stages, kv', kv.segmentCapacity ids, kv'.segmentCapacity ids)

theorem firstPass_spec {operators : List (BaseOp Unit)} {stages : List (Stage Unit)}
    {kv' : KVMemoryManager} {before after : ℚ}
    (passed : firstPass operators = some (stages, kv', before, after)) :
    stages ∈ (plannedSegments operators).1 ∧
      Trace (SegmentStep stages) (plannedSegments operators).2 [.pass waitingUpstream] kv' ∧
      (plannedSegments operators).2.segmentCapacity (stages.map Stage.stageId) = before ∧
      kv'.segmentCapacity (stages.map Stage.stageId) = after := by
  unfold firstPass at passed
  obtain ⟨first, isFirst, passed⟩ := Option.bind_eq_some_iff.mp passed
  obtain ⟨kv, moved, same⟩ := Option.bind_eq_some_iff.mp passed
  cases same
  refine ⟨List.mem_of_head? isFirst, .cons ⟨?_, moved⟩ (.nil _), rfl, rfl⟩
  intro stageId target
  cases target

theorem KVMemoryManager.closed_of_full {ids : List StageId} {kv : KVMemoryManager}
    (full : ∀ id ∈ kv.stageCapacity.keys, id ∉ ids →
      kv.borrowable id ≤ 0 ∧ kv.maxCapacityOf id ≤ kv.capacityOf id) : kv.Closed ids where
  spare := fun id registered out => (full id registered out).1
  last := fun id isLast out => (full id (List.max?_mem isLast) out).2

/-- The filter after the blocking operator is a third stage, whose minimum, maximum and capacity
are all of the 100 bytes. -/
def filterAfterwards : List (BaseOp Unit) :=
  twoStages ++ [.blocking ⟨id⟩, .tuple (passOp Unit)]

theorem segmentCapacity_kept_filterAfterwards :
    ∃ stages kv', stages ∈ (plannedSegments filterAfterwards).1 ∧
      Trace (SegmentStep stages) (plannedSegments filterAfterwards).2 [.pass waitingUpstream] kv' ∧
      (plannedSegments filterAfterwards).2.stageCapacity.keys.map
        (plannedSegments filterAfterwards).2.capacityOf = [1, 99, 100] ∧
      kv'.stageCapacity.keys.map kv'.capacityOf = [6, 94, 100] ∧
      kv'.segmentCapacity (stages.map Stage.stageId) =
        (plannedSegments filterAfterwards).2.segmentCapacity (stages.map Stage.stageId) ∧
      ∀ id, id ∉ stages.map Stage.stageId →
        kv'.capacityOf id = (plannedSegments filterAfterwards).2.capacityOf id := by
  let start := (plannedSegments filterAfterwards).2
  have passes : ∃ result, firstPass filterAfterwards = some result ∧
      start.stageCapacity.keys.map start.capacityOf = [1, 99, 100] ∧
      result.2.1.stageCapacity.keys.map result.2.1.capacityOf = [6, 94, 100] ∧
      ∀ id ∈ start.stageCapacity.keys, id ∉ result.1.map Stage.stageId →
        start.borrowable id ≤ 0 ∧ start.maxCapacityOf id ≤ start.capacityOf id := by
    decide +kernel
  obtain ⟨⟨stages, kv', before, after⟩, passed, given, moved, full⟩ := passes
  obtain ⟨member, run, -, -⟩ := firstPass_spec passed
  exact ⟨stages, kv', member, run, given, moved,
    segmentCapacity_kept stages _ kv' _ (KVMemoryManager.closed_of_full full) run⟩

/-- With a second segment the first pass over the first one gives a byte away: the idle stage
returns it to the last stage of the other segment. -/
theorem segmentCapacity_drained :
    ∃ stages kv',
      stages ∈ (plannedSegments (twoStages ++ .blocking ⟨id⟩ :: twoStages)).1 ∧
      Trace (SegmentStep stages)
        (plannedSegments (twoStages ++ .blocking ⟨id⟩ :: twoStages)).2
        [.pass waitingUpstream] kv' ∧
      (plannedSegments (twoStages ++ .blocking ⟨id⟩ :: twoStages)).2.segmentCapacity
        (stages.map Stage.stageId) = 100 ∧
      kv'.segmentCapacity (stages.map Stage.stageId) = 99 := by
  have passes : ∃ result, firstPass (twoStages ++ .blocking ⟨id⟩ :: twoStages) = some result ∧
      result.2.2.1 = 100 ∧ result.2.2.2 = 99 := by
    decide +kernel
  obtain ⟨⟨stages, kv', before, after⟩, passed, full, drained⟩ := passes
  obtain ⟨member, run, beforeIs, afterIs⟩ := firstPass_spec passed
  exact ⟨stages, kv', member, run, beforeIs.trans full, afterIs.trans drained⟩

end Kalypso.Query
