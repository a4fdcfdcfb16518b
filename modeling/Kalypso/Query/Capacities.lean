import Kalypso.Query.Rebalance
import Kalypso.Query.Registration

/-!
# The capacities of the stages

Bounds that every call on the memory manager keeps, and which stages the loop over saturated
queues serves.
-/

set_option autoImplicit false

namespace Kalypso.Query

open Kalypso.Lib

variable {α : Type}

/-! ## Saturated queues -/

def SaturatedStage (loads : List StageLoad) (stageId : StageId) : Prop :=
  ∃ load ∈ loads, load.stageId = stageId ∧ load.isSaturated = true

/-- Only stages with a saturated queue have gained capacity, and what a saturated stage has lost
was not lost to another one. -/
def ServesSaturated (loads : List StageLoad) (kv kv' : KVMemoryManager) : Prop :=
  (∀ id, kv.capacityOf id < kv'.capacityOf id → SaturatedStage loads id) ∧
    ∀ donorId receiverId, SaturatedStage loads donorId →
      kv'.capacityOf donorId < kv.capacityOf donorId →
      kv.capacityOf receiverId < kv'.capacityOf receiverId → SaturatedStage loads receiverId

namespace KVMemoryManager

/-- There is room in the receiver and another stage has something to spare. -/
def CanBorrow (kv : KVMemoryManager) (receiverId : StageId) : Prop :=
  kv.capacityOf receiverId < kv.maxCapacityOf receiverId ∧
    ∃ donorId ∈ kv.stageCapacity.keys, donorId ≠ receiverId ∧ 0 < kv.borrowable donorId

structure GrowsOnly (receiverId : StageId) (kv kv' : KVMemoryManager) : Prop where
  receiver : kv.capacityOf receiverId < kv'.capacityOf receiverId
  others : ∀ id, id ≠ receiverId → kv'.capacityOf id ≤ kv.capacityOf id

variable {kv kv' : KVMemoryManager} {receiverId donorId : StageId}

theorem moveCapacity_grows {delta : ℚ} (positive : 0 < delta) (different : donorId ≠ receiverId)
    (moved : kv.moveCapacity donorId receiverId delta = some kv') :
    GrowsOnly receiverId kv kv' := by
  obtain ⟨-, capacity⟩ := moveCapacity_spec moved
  refine ⟨?_, ?_⟩
  · rw [capacity, if_neg (Ne.symm different), if_pos rfl]
    linarith
  · intro id other
    rw [capacity, if_neg other]
    split
    · linarith
    · linarith

theorem mem_keys_of_moveCapacity {delta : ℚ}
    (moved : kv.moveCapacity donorId receiverId delta = some kv') :
    donorId ∈ kv.stageCapacity.keys := by
  obtain ⟨cap, found, -⟩ := Option.bind_eq_some_iff.mp moved
  exact kv.stageCapacity.mem_keys_of_get? found

/-- A rebalancing call that returns moves capacity exactly when it can. -/
theorem rebalanceStageCapacity_grows {hint : Option StageId} {fraction : ℚ} {changed : Bool}
    (done : kv.rebalanceStageCapacity receiverId hint fraction = some (changed, kv')) :
    (kv.CanBorrow receiverId ∧ GrowsOnly receiverId kv kv') ∨
      (¬ kv.CanBorrow receiverId ∧ kv' = kv) := by
  rcases kv.rebalanceStageCapacity_cases receiverId hint fraction with
    ⟨same, reason⟩ | ⟨donorId, member, delta, loan, moves⟩
  · rw [same] at done
    cases done
    refine .inr ⟨?_, rfl⟩
    rintro ⟨room, donorId, registered, different, spares⟩
    rcases reason with full | nothing
    · exact absurd room (not_lt.mpr full)
    · have spent := nothing donorId (mem_donorIds.mpr ⟨.inr registered, different⟩)
      exact absurd spares (not_lt.mpr spent)
  · rw [moves] at done
    obtain ⟨after, moved, same⟩ := Option.map_eq_some_iff.mp done
    cases same
    have different := (mem_donorIds.mp member).2
    have room : kv.capacityOf receiverId < kv.maxCapacityOf receiverId := by
      have fits := loan.fits
      have positive := loan.positive
      linarith
    have spares : 0 < kv.borrowable donorId := lt_of_lt_of_le loan.positive loan.spared
    exact .inl ⟨⟨room, donorId, mem_keys_of_moveCapacity moved, different, spares⟩,
      moveCapacity_grows loan.positive different moved⟩

end KVMemoryManager

open KVMemoryManager

variable {kv kv' : KVMemoryManager} {lastId : StageId}

theorem growSaturated_cases {neighbours : StageLoad × StageLoad}
    (done : growSaturated lastId kv neighbours = some kv') :
    (neighbours.2.isSaturated = true ∧ kv.CanBorrow lastId ∧ GrowsOnly lastId kv kv') ∨
      (¬ (neighbours.2.isSaturated = true ∧ kv.CanBorrow lastId) ∧ kv' = kv) := by
  unfold growSaturated at done
  split at done
  · rename_i saturated
    obtain ⟨⟨changed, after⟩, moved, same⟩ := Option.map_eq_some_iff.mp done
    cases same
    rcases rebalanceStageCapacity_grows moved with ⟨can, grows⟩ | ⟨cannot, same⟩
    · exact .inl ⟨saturated, can, grows⟩
    · exact .inr ⟨fun both => cannot both.2, same⟩
  · rename_i calm
    cases done
    exact .inr ⟨fun both => calm both.1, rfl⟩

theorem growSaturated_mono {pairs : List (StageLoad × StageLoad)}
    (done : pairs.foldlM (growSaturated lastId) kv = some kv') :
    kv.capacityOf lastId ≤ kv'.capacityOf lastId ∧
      ∀ id, id ≠ lastId → kv'.capacityOf id ≤ kv.capacityOf id := by
  refine (Trace.of_foldlM done).invariant
    (P := fun after => kv.capacityOf lastId ≤ after.capacityOf lastId ∧
      ∀ id, id ≠ lastId → after.capacityOf id ≤ kv.capacityOf id) ?_
    ⟨le_refl _, fun _ _ => le_refl _⟩
  intro before pair after step soFar
  rcases growSaturated_cases step with ⟨-, -, grows⟩ | ⟨-, rfl⟩
  · refine ⟨soFar.1.trans grows.receiver.le, ?_⟩
    intro id other
    exact (grows.others id other).trans (soFar.2 id other)
  · exact soFar

/-- The loop changes capacities exactly when a queue is saturated and the last stage can
borrow. -/
theorem growSaturated_loop {kv' : KVMemoryManager} :
    ∀ (pairs : List (StageLoad × StageLoad)) (kv : KVMemoryManager),
      pairs.foldlM (growSaturated lastId) kv = some kv' →
        ((∃ pair ∈ pairs, pair.2.isSaturated = true) ∧ kv.CanBorrow lastId ∧
          GrowsOnly lastId kv kv') ∨
        (¬ ((∃ pair ∈ pairs, pair.2.isSaturated = true) ∧ kv.CanBorrow lastId) ∧ kv' = kv) := by
  intro pairs
  induction pairs with
  | nil =>
    intro kv done
    cases done
    exact .inr ⟨by simp, rfl⟩
  | cons pair rest ih =>
    intro kv done
    rw [List.foldlM_cons] at done
    obtain ⟨middle, first, later⟩ := Option.bind_eq_some_iff.mp done
    rcases growSaturated_cases first with ⟨saturated, can, grows⟩ | ⟨calm, rfl⟩
    · obtain ⟨receiver, others⟩ := growSaturated_mono later
      refine .inl ⟨⟨pair, List.mem_cons_self, saturated⟩, can, ?_, ?_⟩
      · exact lt_of_lt_of_le grows.receiver receiver
      · intro id other
        exact (others id other).trans (grows.others id other)
    · rcases ih middle later with ⟨⟨other, member, saturated⟩, can, grows⟩ | ⟨none, same⟩
      · exact .inl ⟨⟨other, List.mem_cons_of_mem _ member, saturated⟩, can, grows⟩
      · refine .inr ⟨?_, same⟩
        rintro ⟨⟨other, member, saturated⟩, can⟩
        rcases List.mem_cons.mp member with rfl | later
        · exact calm ⟨saturated, can⟩
        · exact none ⟨⟨other, later, saturated⟩, can⟩

/-- The second components of the neighbours are the stages after the first. -/
theorem saturated_neighbour_iff (loads : List StageLoad) :
    (∃ pair ∈ loads.zip loads.tail, pair.2.isSaturated = true) ↔
      ∃ load ∈ loads.tail, load.isSaturated = true := by
  have seconds : (loads.zip loads.tail).map Prod.snd = loads.tail := by
    apply List.map_snd_zip
    simp
  constructor
  · rintro ⟨pair, member, saturated⟩
    exact ⟨pair.2, (List.of_mem_zip member).2, saturated⟩
  · rintro ⟨load, member, saturated⟩
    rw [← seconds, List.mem_map] at member
    obtain ⟨pair, member, rfl⟩ := member
    exact ⟨pair, member, saturated⟩

/-- What the loop over saturated queues does: it grows the last stage of the segment, whichever
queue is saturated.  It serves the saturated queues exactly when the last stage is saturated or
nothing is moved. -/
theorem saturationLoop_serves_iff (loads : List StageLoad) (kv kv' : KVMemoryManager)
    (done : saturationLoop loads kv = some kv') :
    ServesSaturated loads kv kv' ↔
      ∀ last ∈ loads.getLast?, SaturatedStage loads last.stageId ∨
        ¬ ((∃ load ∈ loads.tail, load.isSaturated = true) ∧ kv.CanBorrow last.stageId) := by
  unfold saturationLoop at done
  cases isLast : loads.getLast? with
  | none =>
    rw [isLast] at done
    cases done
    simp [ServesSaturated]
  | some last =>
    rw [isLast] at done
    simp only [Option.mem_some_iff, forall_eq']
    rw [← saturated_neighbour_iff]
    rcases growSaturated_loop _ kv done with ⟨saturated, can, grows⟩ | ⟨calm, rfl⟩
    · have onlyLast : ∀ id, kv.capacityOf id < kv'.capacityOf id → id = last.stageId := by
        intro id gains
        by_contra other
        exact absurd gains (not_lt.mpr (grows.others id other))
      constructor
      · intro serves
        exact .inl (serves.1 last.stageId grows.receiver)
      · rintro (own | calm)
        · refine ⟨fun id gains => ?_, fun donorId id _ _ gains => ?_⟩
          · rw [onlyLast id gains]
            exact own
          · rw [onlyLast id gains]
            exact own
        · exact absurd ⟨saturated, can⟩ calm
    · refine iff_of_true ?_ (.inr calm)
      simp [ServesSaturated]

/-- Two stages with room to grow; the queue of the second is saturated. -/
def roomyManager : KVMemoryManager :=
  ((KVMemoryManager.init 100 1).registerStage 1 (1 / 2) (some 0) (some 1) none).registerStage
    2 (1 / 4) (some 0) (some 1) none

def saturatedSecond : List StageLoad := [⟨1, 0, 1, 1, 1⟩, ⟨2, 3, 0, 1, 1⟩]

theorem saturationLoop_serves_second :
    ∃ kv', saturationLoop saturatedSecond roomyManager = some kv' ∧
      kv'.capacityOf 1 = 45 ∧ kv'.capacityOf 2 = 30 ∧
      (ServesSaturated saturatedSecond roomyManager kv' ↔
        ∀ last ∈ saturatedSecond.getLast?, SaturatedStage saturatedSecond last.stageId ∨
          ¬ ((∃ load ∈ saturatedSecond.tail, load.isSaturated = true) ∧
            roomyManager.CanBorrow last.stageId)) := by
  have moves : ∃ kv', saturationLoop saturatedSecond roomyManager = some kv' ∧
      kv'.capacityOf 1 = 45 ∧ kv'.capacityOf 2 = 30 := by
    decide +kernel
  obtain ⟨kv', done, first, second⟩ := moves
  exact ⟨kv', done, first, second, saturationLoop_serves_iff _ _ _ done⟩

def threeStageOps : List (BaseOp Unit) :=
  [.tuple (passOp Unit), .join (productOp Unit 2), .tuple (passOp Unit),
    .join (productOp Unit 2), .tuple (passOp Unit)]

def waitingCounts (counts : List Nat) : List (StageTasks Unit) :=
  counts.map fun count =>
    ⟨List.replicate count { ctx := ⟨(), none⟩, stageIndex := 0, taskId := 0 }, .empty⟩

/-- A pass while only the first stage has a task, and then the loop over saturated queues when
two tasks wait for the second stage. -/
def saturatedMiddle :
    Option (List (Stage Unit) × KVMemoryManager × List StageLoad × KVMemoryManager) := do
  let (segments, start) := plannedSegments threeStageOps
  let stages ← segments.head?
  let kv ← rebalancePass stages (waitingCounts [1, 0, 0]) start
  let loads := List.zipWith (Stage.load kv) stages (waitingCounts [1, 2, 0])
  let kv' ← saturationLoop loads kv
  return (stages, kv, loads, kv')

/-- With a saturated second stage of three, the third grows, whose queue is empty. -/
theorem saturationLoop_grows_idle :
    ∃ stages kv kv', stages ∈ (plannedSegments threeStageOps).1 ∧
      rebalancePass stages (waitingCounts [1, 0, 0]) (plannedSegments threeStageOps).2 =
        some kv ∧
      saturationLoop (List.zipWith (Stage.load kv) stages (waitingCounts [1, 2, 0])) kv =
        some kv' ∧
      ¬ ServesSaturated (List.zipWith (Stage.load kv) stages (waitingCounts [1, 2, 0])) kv
        kv' := by
  have runs : ∃ result, saturatedMiddle = some result ∧
      result.2.1.capacityOf 3 < result.2.2.2.capacityOf 3 ∧
      ∀ load ∈ result.2.2.1, load.stageId = 3 → load.isSaturated = false := by
    decide +kernel
  obtain ⟨⟨stages, kv, loads, kv'⟩, ran, grows, calm⟩ := runs
  unfold saturatedMiddle at ran
  obtain ⟨first, isFirst, ran⟩ := Option.bind_eq_some_iff.mp ran
  obtain ⟨passed, isPassed, ran⟩ := Option.bind_eq_some_iff.mp ran
  obtain ⟨grown, isGrown, same⟩ := Option.bind_eq_some_iff.mp ran
  cases same
  refine ⟨stages, kv, kv', List.mem_of_head? isFirst, isPassed, isGrown, ?_⟩
  intro serves
  obtain ⟨load, member, isThird, saturated⟩ := serves.1 3 grows
  rw [calm load member isThird] at saturated
  cases saturated

/-! ## Bounds -/

namespace KVMemoryManager

def allocateStage (kv : KVMemoryManager) (stageId : StageId) (budget : Int) :
    Option KVMemoryManager :=
  match kv.tryAllocateStage stageId budget with
  | some (true, kv') => some kv'
  | _ => none

def totalCapacity (kv : KVMemoryManager) : ℚ := kv.stageCapacity.values.sum

end KVMemoryManager

inductive StageCall where
  | register (stageId : StageId) (fraction : ℚ) (minFraction maxFraction : Option ℚ)
      (minCapacityBytes : Option Int)
  | tryAllocate (stageId : StageId) (budget : Int)
  | allocate (stageId : StageId) (budget : Int)
  | release (stageId : StageId) (budget : Int)
  | rebalance (receiverId : StageId) (donorHint : Option StageId) (quantumFraction : ℚ)
  | giveBack (stageId : StageId) (quantumFraction : ℚ) (forceReturn : Bool)

namespace StageCall

/-- Fractions are at most the maximal ones, and neither they nor budgets are negative. -/
def Allowed : StageCall → Prop
  | .register _ fraction _ maxFraction _ => 0 ≤ fraction ∧ fraction ≤ maxFraction.getD fraction
  | .tryAllocate _ budget => 0 ≤ budget
  | .allocate _ budget => 0 ≤ budget
  | .release _ budget => 0 ≤ budget
  | .rebalance _ _ _ => True
  | .giveBack _ _ _ => True

def perform (kv : KVMemoryManager) : StageCall → Option KVMemoryManager
  | .register stageId fraction minFraction maxFraction minCapacityBytes =>
      some (kv.registerStage stageId fraction minFraction maxFraction minCapacityBytes)
  | .tryAllocate stageId budget => (kv.tryAllocateStage stageId budget).map Prod.snd
  | .allocate stageId budget => kv.allocateStage stageId budget
  | .release stageId budget => kv.releaseStage stageId budget
  | .rebalance receiverId donorHint quantumFraction =>
      (kv.rebalanceStageCapacity receiverId donorHint quantumFraction).map Prod.snd
  | .giveBack stageId quantumFraction forceReturn =>
      (kv.returnStageCapacity stageId quantumFraction forceReturn).map Prod.snd

def Step (kv : KVMemoryManager) (call : StageCall) (kv' : KVMemoryManager) : Prop :=
  call.Allowed ∧ call.perform kv = some kv'

end StageCall

namespace KVMemoryManager

structure Bounded (kv : KVMemoryManager) : Prop where
  capacity : 0 ≤ kv.capacity
  used_nonneg : ∀ id, 0 ≤ kv.used id
  used_le : ∀ id, (kv.used id : ℚ) ≤ kv.capacityOf id
  le_max : ∀ id, kv.capacityOf id ≤ kv.maxCapacityOf id
  /-- Only stages with a capacity have a maximum. -/
  known : ∀ id, (kv.stageMaxCapacity.get? id).isSome → id ∈ kv.stageCapacity.keys

theorem bounded_init {capacity : Int} (nonneg : 0 ≤ capacity) (bytesPerToken : Nat) :
    (init capacity bytesPerToken).Bounded where
  capacity := nonneg
  used_nonneg := fun _ => le_refl 0
  used_le := fun _ => le_refl 0
  le_max := fun _ => le_refl 0
  known := by
    intro id found
    cases found

section Move

variable {kv kv' : KVMemoryManager} {donorId receiverId : StageId} {spare delta : ℚ}

theorem Bounded.capacity_nonneg (bounded : kv.Bounded) (id : StageId) : 0 ≤ kv.capacityOf id := by
  have nonneg : (0 : ℚ) ≤ kv.used id := by exact_mod_cast bounded.used_nonneg id
  exact nonneg.trans (bounded.used_le id)

theorem mem_keys_of_capacity_pos {id : StageId} (positive : 0 < kv.capacityOf id) :
    id ∈ kv.stageCapacity.keys := by
  by_contra absent
  rw [← Dict.get?_eq_none_iff] at absent
  simp [capacityOf, Dict.getD, absent] at positive

section

variable (bounded : kv.Bounded) (loan : Loan kv spare receiverId delta)

include bounded loan

theorem Bounded.receiver_known : receiverId ∈ kv.stageCapacity.keys := by
  apply bounded.known
  rw [Option.isSome_iff_ne_none]
  intro absent
  have same : kv.maxCapacityOf receiverId = kv.capacityOf receiverId := by
    simp [maxCapacityOf, Dict.getD, absent]
  have fits := loan.fits
  have positive := loan.positive
  linarith

theorem Bounded.donor_known (free : spare ≤ kv.capacityOf donorId - kv.used donorId) :
    donorId ∈ kv.stageCapacity.keys := by
  apply mem_keys_of_capacity_pos
  have nonneg : (0 : ℚ) ≤ kv.used donorId := by exact_mod_cast bounded.used_nonneg donorId
  have positive := loan.positive
  have spared := loan.spared
  linarith

theorem Bounded.move (free : spare ≤ kv.capacityOf donorId - kv.used donorId)
    (moved : kv.moveCapacity donorId receiverId delta = some kv') : kv'.Bounded := by
  obtain ⟨reassigned, capacity⟩ := moveCapacity_spec moved
  have keys := reassigned.keys
  have positive := loan.positive
  have spared := loan.spared
  have fits := loan.fits
  obtain ⟨f, rfl⟩ := reassigned
  refine ⟨bounded.capacity, bounded.used_nonneg, ?_, ?_, ?_⟩
  · intro id
    have before := bounded.used_le id
    change (kv.used id : ℚ) ≤ _
    rw [capacity]
    by_cases isDonor : id = donorId
    · subst isDonor
      rw [if_pos rfl]
      split
      · linarith
      · linarith
    · rw [if_neg isDonor]
      split
      · linarith
      · linarith
  · intro id
    have before := bounded.le_max id
    cases limit : kv.stageMaxCapacity.get? id with
    | none =>
      apply le_of_eq
      simp only [maxCapacityOf, Dict.getD, limit, Option.getD_none]
    | some most =>
      have isMost : kv.maxCapacityOf id = most := by
        simp [maxCapacityOf, Dict.getD, limit]
      have stillMost : ({ kv with stageCapacity := kv.stageCapacity.mapValues f } :
          KVMemoryManager).maxCapacityOf id = most := by
        simp [maxCapacityOf, Dict.getD, limit]
      rw [capacity, stillMost]
      rw [isMost] at before
      by_cases isReceiver : id = receiverId
      · subst isReceiver
        rw [if_pos rfl]
        rw [isMost] at fits
        split
        · linarith
        · linarith
      · rw [if_neg isReceiver]
        split
        · linarith
        · linarith
  · intro id limited
    rw [keys]
    exact bounded.known id limited

end

theorem moveCapacity_keeps {least : ℚ} (loan : Loan kv spare receiverId delta)
    (protects : spare ≤ kv.capacityOf donorId - least)
    (moved : kv.moveCapacity donorId receiverId delta = some kv') {id : StageId}
    (shrinks : kv'.capacityOf id < kv.capacityOf id) :
    id = donorId ∧ least ≤ kv'.capacityOf id := by
  obtain ⟨-, capacity⟩ := moveCapacity_spec moved
  have positive := loan.positive
  have spared := loan.spared
  rw [capacity] at shrinks ⊢
  by_cases isDonor : id = donorId
  · subst isDonor
    refine ⟨rfl, ?_⟩
    rw [if_pos rfl]
    split
    · linarith
    · linarith
  · exfalso
    rw [if_neg isDonor] at shrinks
    split at shrinks
    · linarith
    · linarith

theorem moveCapacity_total (moved : kv.moveCapacity donorId receiverId delta = some kv') :
    kv'.totalCapacity = kv.totalCapacity := by
  obtain ⟨donorCap, donorFound, moved⟩ := Option.bind_eq_some_iff.mp moved
  obtain ⟨receiverCap, receiverFound, moved⟩ := Option.bind_eq_some_iff.mp moved
  cases moved
  have lowered := Dict.sum_set_present Prod.snd kv.stageCapacity (donorCap - delta) donorFound
  have raised := Dict.sum_set_present Prod.snd
    (kv.stageCapacity.set donorId (donorCap - delta)) (receiverCap + delta) receiverFound
  simp only [totalCapacity, Dict.values]
  linarith

end Move

structure Moves (kv kv' : KVMemoryManager) : Prop where
  bounded : kv'.Bounded
  total : kv'.totalCapacity = kv.totalCapacity

def RespectsMin (kv kv' : KVMemoryManager) : Prop :=
  ∀ id, kv'.capacityOf id < kv.capacityOf id → kv.minCapacityOf id ≤ kv'.capacityOf id

variable {kv kv' : KVMemoryManager} {stageId : StageId} {budget : Int}

theorem respectsMin_refl (kv : KVMemoryManager) : kv.RespectsMin kv :=
  fun _ shrinks => absurd shrinks (lt_irrefl _)

theorem borrowable_le_free (kv : KVMemoryManager) (id : StageId) :
    kv.borrowable id ≤ kv.capacityOf id - kv.used id :=
  sub_le_sub_left (le_max_right _ _) _

theorem releasable_le_free (kv : KVMemoryManager) (id : StageId) (forced : Bool) :
    kv.releasable id forced ≤ kv.capacityOf id - kv.used id := by
  unfold releasable
  split
  · exact le_refl _
  · exact sub_le_sub_left (le_max_right _ _) _

theorem Bounded.rebalances (bounded : kv.Bounded) (receiverId : StageId)
    (hint : Option StageId) (fraction : ℚ) :
    ∃ changed kv', kv.rebalanceStageCapacity receiverId hint fraction = some (changed, kv') ∧
      Moves kv kv' ∧ kv.RespectsMin kv' := by
  rcases kv.rebalanceStageCapacity_cases receiverId hint fraction with
    ⟨same, -⟩ | ⟨donorId, -, delta, loan, moves⟩
  · exact ⟨false, kv, same, ⟨bounded, rfl⟩, kv.respectsMin_refl⟩
  · have free := kv.borrowable_le_free donorId
    obtain ⟨kv', moved, -⟩ :=
      moveCapacity_returns (bounded.donor_known loan free) (bounded.receiver_known loan) delta
    refine ⟨true, kv', by rw [moves, moved, Option.map_some],
      ⟨bounded.move loan free moved, moveCapacity_total moved⟩, ?_⟩
    intro id shrinks
    obtain ⟨rfl, kept⟩ := moveCapacity_keeps loan (sub_le_sub_left (le_max_left _ _) _) moved
      shrinks
    exact kept

theorem Bounded.givesBack (bounded : kv.Bounded) (stageId : StageId) (fraction : ℚ)
    (forced : Bool) :
    ∃ changed kv', kv.returnStageCapacity stageId fraction forced = some (changed, kv') ∧
      Moves kv kv' ∧ (forced = false → kv.RespectsMin kv') := by
  rcases kv.returnStageCapacity_cases stageId fraction forced with
    same | ⟨receiverId, isLast, delta, loan, moves⟩
  · exact ⟨false, kv, same, ⟨bounded, rfl⟩, fun _ => kv.respectsMin_refl⟩
  · have free := kv.releasable_le_free stageId forced
    obtain ⟨kv', moved, -⟩ :=
      moveCapacity_returns (bounded.donor_known loan free) (bounded.receiver_known loan) delta
    refine ⟨true, kv', by rw [moves, moved, Option.map_some],
      ⟨bounded.move loan free moved, moveCapacity_total moved⟩, ?_⟩
    intro unforced id shrinks
    have protects : kv.releasable stageId forced ≤
        kv.capacityOf stageId - kv.minCapacityOf stageId := by
      rw [unforced]
      exact sub_le_sub_left (le_max_left _ _) _
    obtain ⟨rfl, kept⟩ := moveCapacity_keeps loan protects moved shrinks
    exact kept

/-! ### Reservations and registrations -/

theorem Bounded.setUsed (bounded : kv.Bounded) (stageId : StageId) {used : Int}
    (inflight : Dict StageId Int) (nonneg : 0 ≤ used) (fits : (used : ℚ) ≤ kv.capacityOf stageId) :
    Bounded
      { kv with stageUsed := kv.stageUsed.set stageId used, stageInflight := inflight } := by
  refine ⟨bounded.capacity, ?_, ?_, bounded.le_max, bounded.known⟩
  · intro id
    rw [KVMemoryManager.used, getD_set]
    split
    · exact nonneg
    · exact bounded.used_nonneg id
  · intro id
    rw [KVMemoryManager.used, getD_set]
    split
    · rename_i same
      rw [same]
      exact fits
    · exact bounded.used_le id

theorem used_of_get? {used : Int} (found : kv.stageUsed.get? stageId = some used) :
    kv.used stageId = used := by
  simp [KVMemoryManager.used, Dict.getD, found]

theorem Bounded.tryAllocate {accepted : Bool} (bounded : kv.Bounded) (nonneg : 0 ≤ budget)
    (done : kv.tryAllocateStage stageId budget = some (accepted, kv')) : kv'.Bounded := by
  unfold tryAllocateStage at done
  obtain ⟨used, usedFound, done⟩ := Option.bind_eq_some_iff.mp done
  obtain ⟨cap, capFound, done⟩ := Option.bind_eq_some_iff.mp done
  split at done
  · cases done
    exact bounded
  · rename_i fits
    obtain ⟨inflight, -, done⟩ := Option.bind_eq_some_iff.mp done
    cases done
    have before := bounded.used_nonneg stageId
    rw [used_of_get? usedFound] at before
    apply bounded.setUsed
    · omega
    · rw [capacityOf_of_get? kv capFound]
      push_cast
      exact not_lt.mp fits

theorem Bounded.release (bounded : kv.Bounded) (nonneg : 0 ≤ budget)
    (done : kv.releaseStage stageId budget = some kv') : kv'.Bounded := by
  unfold releaseStage at done
  obtain ⟨used, usedFound, done⟩ := Option.bind_eq_some_iff.mp done
  obtain ⟨inflight, -, done⟩ := Option.bind_eq_some_iff.mp done
  cases done
  have before := bounded.used_nonneg stageId
  have within := bounded.used_le stageId
  rw [used_of_get? usedFound] at before within
  apply bounded.setUsed
  · split
    · omega
    · omega
  · have lower : (if used - budget < 0 then 0 else used - budget) ≤ used := by
      split
      · omega
      · omega
    exact le_trans (by exact_mod_cast lower) within

theorem Bounded.register (bounded : kv.Bounded) (stageId : StageId) {fraction : ℚ}
    (minFraction : Option ℚ) {maxFraction : Option ℚ} (minCapacityBytes : Option Int)
    (nonneg : 0 ≤ fraction) (atMost : fraction ≤ maxFraction.getD fraction) :
    (kv.registerStage stageId fraction minFraction maxFraction minCapacityBytes).Bounded := by
  have positive : (0 : ℚ) ≤ kv.capacity := by exact_mod_cast bounded.capacity
  have capIs : ∀ id, capacityOf
      (kv.registerStage stageId fraction minFraction maxFraction minCapacityBytes) id =
        if id = stageId then kv.capacity * fraction else kv.capacityOf id :=
    fun id => capacityOf_set kv stageId id (kv.capacity * fraction)
  have usedIs := (kv.registerStage_resets stageId fraction minFraction maxFraction
    minCapacityBytes).used
  refine ⟨bounded.capacity, ?_, ?_, ?_, ?_⟩
  · intro id
    rw [usedIs]
    split
    · exact le_refl 0
    · exact bounded.used_nonneg id
  · intro id
    rw [usedIs, capIs]
    by_cases isNew : id = stageId
    · simp only [isNew, List.mem_singleton, if_true, Int.cast_zero]
      exact mul_nonneg positive nonneg
    · simp only [isNew, List.mem_singleton, if_false]
      exact bounded.used_le id
  · intro id
    simp only [maxCapacityOf, capIs]
    simp only [registerStage, Dict.getD, Dict.get?_set]
    by_cases isNew : id = stageId
    · simp only [isNew, if_true, Option.getD_some]
      exact mul_le_mul_of_nonneg_left atMost positive
    · simp only [isNew, if_false]
      exact bounded.le_max id
  · intro id limited
    by_contra absent
    rw [← Dict.get?_eq_none_iff] at absent
    simp only [registerStage, Dict.get?_set] at limited absent
    by_cases isNew : id = stageId
    · simp [isNew] at absent
    · simp only [isNew, if_false] at limited absent
      exact (Dict.get?_eq_none_iff _ _).mp absent (bounded.known id limited)

end KVMemoryManager

open KVMemoryManager

theorem StageCall.bounded_step {call : StageCall} (step : StageCall.Step kv call kv')
    (bounded : kv.Bounded) : kv'.Bounded := by
  obtain ⟨allowed, done⟩ := step
  cases call with
  | register stageId fraction minFraction maxFraction minCapacityBytes =>
    cases done
    exact bounded.register stageId minFraction minCapacityBytes allowed.1 allowed.2
  | tryAllocate stageId budget =>
    obtain ⟨⟨accepted, after⟩, allocated, same⟩ := Option.map_eq_some_iff.mp done
    cases same
    exact bounded.tryAllocate allowed allocated
  | allocate stageId budget =>
    simp only [perform, allocateStage] at done
    split at done
    · rename_i after allocated
      cases done
      exact bounded.tryAllocate allowed allocated
    · cases done
  | release stageId budget => exact bounded.release allowed done
  | rebalance receiverId hint fraction =>
    obtain ⟨changed, after, moved, moves, -⟩ := bounded.rebalances receiverId hint fraction
    simp only [perform, moved, Option.map_some, Option.some.injEq] at done
    rw [← done]
    exact moves.bounded
  | giveBack stageId fraction forced =>
    obtain ⟨changed, after, moved, moves, -⟩ := bounded.givesBack stageId fraction forced
    simp only [perform, moved, Option.map_some, Option.some.injEq] at done
    rw [← done]
    exact moves.bounded

/-- In every state that calls reach from a fresh manager, every stage uses at most its capacity
and has at most its maximum; rebalancing and returning never raise, leave the total as it is, and
unless a return is forced take no stage below its minimum. -/
theorem stage_capacities_bounded (capacity : Int) (bytesPerToken : Nat) (kv : KVMemoryManager)
    (calls : List StageCall) (nonneg : 0 ≤ capacity)
    (run : Trace StageCall.Step (.init capacity bytesPerToken) calls kv) :
    (∀ id, 0 ≤ kv.capacityOf id ∧ kv.capacityOf id ≤ kv.maxCapacityOf id ∧
      (kv.used id : ℚ) ≤ kv.capacityOf id) ∧
    (∀ receiverId hint fraction, ∃ changed kv',
      kv.rebalanceStageCapacity receiverId hint fraction = some (changed, kv') ∧
      kv'.totalCapacity = kv.totalCapacity ∧ kv.RespectsMin kv') ∧
    ∀ stageId fraction forced, ∃ changed kv',
      kv.returnStageCapacity stageId fraction forced = some (changed, kv') ∧
      kv'.totalCapacity = kv.totalCapacity ∧ (forced = false → kv.RespectsMin kv') := by
  have bounded : kv.Bounded :=
    run.invariant (fun _ _ _ step before => StageCall.bounded_step step before)
      (bounded_init nonneg bytesPerToken)
  refine ⟨?_, ?_, ?_⟩
  · intro id
    exact ⟨bounded.capacity_nonneg id, bounded.le_max id, bounded.used_le id⟩
  · intro receiverId hint fraction
    obtain ⟨changed, kv', moved, moves, respects⟩ := bounded.rebalances receiverId hint fraction
    exact ⟨changed, kv', moved, moves.total, respects⟩
  · intro stageId fraction forced
    obtain ⟨changed, kv', moved, moves, respects⟩ := bounded.givesBack stageId fraction forced
    exact ⟨changed, kv', moved, moves.total, respects⟩

/-- Two stages are registered, one of them takes a reservation, and the other borrows. -/
def borrowingCalls : List StageCall :=
  [.register 1 (1 / 2) (some 0) (some 1) none, .register 2 (1 / 4) (some 0) (some 1) (some 5),
    .tryAllocate 1 10, .rebalance 2 none (1 / 10), .release 1 10]

theorem stage_capacities_bounded_borrowing :
    ∃ kv, Trace StageCall.Step (.init 100 1) borrowingCalls kv ∧
      kv.capacityOf 1 = 40 ∧ kv.capacityOf 2 = 35 ∧
      ((∀ id, 0 ≤ kv.capacityOf id ∧ kv.capacityOf id ≤ kv.maxCapacityOf id ∧
        (kv.used id : ℚ) ≤ kv.capacityOf id) ∧
      (∀ receiverId hint fraction, ∃ changed kv',
        kv.rebalanceStageCapacity receiverId hint fraction = some (changed, kv') ∧
        kv'.totalCapacity = kv.totalCapacity ∧ kv.RespectsMin kv') ∧
      ∀ stageId fraction forced, ∃ changed kv',
        kv.returnStageCapacity stageId fraction forced = some (changed, kv') ∧
        kv'.totalCapacity = kv.totalCapacity ∧ (forced = false → kv.RespectsMin kv')) := by
  have runs : ∃ kv, borrowingCalls.foldlM StageCall.perform (.init 100 1) = some kv ∧
      kv.capacityOf 1 = 40 ∧ kv.capacityOf 2 = 35 := by
    decide +kernel
  obtain ⟨kv, done, first, second⟩ := runs
  have allowed : ∀ call ∈ borrowingCalls, call.Allowed := by
    simp only [borrowingCalls, List.forall_mem_cons, StageCall.Allowed]
    norm_num
  have run : Trace StageCall.Step (.init 100 1) borrowingCalls kv :=
    (Trace.of_foldlM done).mono_of allowed fun _ _ _ ok step => ⟨ok, step⟩
  exact ⟨kv, run, first, second, stage_capacities_bounded 100 1 kv _ (by decide) run⟩

/-! ### Planned stages -/

theorem registerStages_bounded (minCaps : Dict StageId Int) (caps : List (StageId × Int)) :
    ∀ kv : KVMemoryManager, kv.Bounded → (registerStages minCaps caps kv).Bounded := by
  induction caps with
  | nil =>
    intro kv bounded
    exact bounded
  | cons cap caps ih =>
    obtain ⟨sid, assigned⟩ := cap
    intro kv bounded
    have capacityNonneg : (0 : ℚ) ≤ kv.capacity := by exact_mod_cast bounded.capacity
    have assignedNonneg : (0 : ℚ) ≤ (max (kv.bytesPerToken : Int) assigned : Int) := by
      exact_mod_cast le_max_of_le_left (Int.natCast_nonneg kv.bytesPerToken)
    rw [registerStages]
    apply ih
    apply bounded.register
    · exact le_min zero_le_one (div_nonneg assignedNonneg capacityNonneg)
    · rw [Option.getD_some]
      split
      · exact min_le_left _ _
      · refine le_min (min_le_left _ _) ?_
        linarith

theorem registerSegment_bounded {env : BuildEnv α} {segment : List (Stage α)} (bounded : kv.Bounded)
    (registers : registerSegment env segment kv = .ok kv') : kv'.Bounded := by
  unfold registerSegment at registers
  split at registers
  · cases registers
    exact bounded
  · cases registers
    exact bounded.register _ _ _ zero_le_one (le_refl 1)
  · split at registers
    · cases registers
    · cases registers
      exact registerStages_bounded _ _ kv bounded

end Kalypso.Query
