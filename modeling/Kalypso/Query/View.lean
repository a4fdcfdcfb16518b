import Mathlib.Data.Multiset.UnionInter
import Kalypso.Query.Pipeline

/-!
# What a step of the executor can do

An abstract view of the event loop, without its queues and control points: which tasks are
alive, which reservations are held by running tasks, which releases and unpins are due, and
which trackers are still to be told that a child has finished.  `Effect` lists everything
that one step can do to it.
-/

set_option autoImplicit false

namespace Kalypso.Query

open Kalypso.Lib

variable {α : Type}

/-! ## Positions -/

/-- How far a tuple has come: the stage it is in and the operator to run next. -/
structure Position (α : Type) where
  ctx : SemContext α
  stageIndex : Nat
  opIndex : Nat

def Task.position (task : Task α) : Position α := ⟨task.ctx, task.stageIndex, task.opIndex⟩

def Stage.fanout (stage : Stage α) (ctx : SemContext α) : List (SemContext α) :=
  match stage.fanoutOp with
  | none => [ctx]
  | some op => op.call ctx

/-- Where the tuple of a completed task goes on; `none` when the task has raised. -/
def Stage.successors (stage : Stage α) (p : Position α) : Option (List (Position α)) :=
  match Stage.runOperators (stage.operators.drop p.opIndex) p.opIndex p.ctx with
  | .raised => none
  | .retry ctx opIndex _ => some [⟨ctx, p.stageIndex, opIndex⟩]
  | .dropped => some []
  | .finished ctx => some ((stage.fanout ctx).map fun child => ⟨child, p.stageIndex + 1, 0⟩)

/-- Freshly created tasks at the given positions, all with the same trackers. -/
structure Children (nextTaskId : TaskId) (trackers : List TrackerId)
    (positions : List (Position α)) (children : List (Task α)) : Prop where
  ids : children.map Task.taskId = List.range' nextTaskId children.length
  positions : children.map Task.position = positions
  trackers : ∀ child ∈ children, child.trackers = trackers
  unreserved : ∀ child ∈ children, child.reservedBudget = 0

namespace Children

variable {nextTaskId : TaskId} {trackers : List TrackerId} {positions : List (Position α)}
  {children : List (Task α)}

section

variable (fresh : Children nextTaskId trackers positions children)

include fresh

theorem id_range {child : Task α} (member : child ∈ children) :
    nextTaskId ≤ child.taskId ∧ child.taskId < nextTaskId + children.length := by
  have inIds : child.taskId ∈ children.map Task.taskId := List.mem_map_of_mem member
  rw [fresh.ids, List.mem_range'_1] at inIds
  exact inIds

theorem ids_nodup : (children.map Task.taskId).Nodup := by
  rw [fresh.ids]
  exact List.nodup_range'

theorem length_eq : children.length = positions.length := by
  rw [← fresh.positions, List.length_map]

end

end Children

/-! ## Trackers -/

namespace JoinTracker

def reservation (tracker : JoinTracker) : Reservation :=
  ⟨tracker.parentTask, tracker.stageId, tracker.reservedBudget⟩

def afterChild (tracker : JoinTracker) : JoinTracker :=
  { tracker with
    pendingChildren := tracker.pendingChildren - 1
    parentPin := if tracker.pendingChildren - 1 = 0 then none else tracker.parentPin }

/-- The unpin and the release that become due when the last counted child has finished. -/
def firing (k : TrackerId) (tracker : JoinTracker) : List ExecEvent :=
  if tracker.pendingChildren - 1 = 0 then
    tracker.parentPin.toList.map (fun request => .unpin request (some k)) ++
      if tracker.reservedBudget > 0 then [.release tracker.reservation (some k)] else []
  else []

end JoinTracker

/-! ## The view -/

@[ext] structure View (α : Type) where
  /-- tasks that wait, run, or are about to be queued or emitted -/
  live : Multiset (Task α)
  /-- reservations of running tasks -/
  held : Multiset Reservation
  /-- releases and unpins that are still to be carried out -/
  due : Multiset ExecEvent
  /-- trackers that are still to be told of a finished child -/
  finishing : Multiset TrackerId
  trackers : List JoinTracker
  out : List (SemContext α)
  log : List ExecEvent
  nextTaskId : TaskId
  /-- an exception is on its way out -/
  failing : Bool

/-- The running task `task` is taken out, with its reservation; `live` and `held` are what
remains. -/
structure Completes (stages : List (Stage α)) (v : View α) (task : Task α) (stage : Stage α)
    (budget : Int) (live : Multiset (Task α)) (held : Multiset Reservation) : Prop where
  found : stages[task.stageIndex]? = some stage
  leaves : v.live = task ::ₘ live
  holds : v.held = ⟨task.taskId, stage.stageId, budget⟩ ::ₘ held

def View.spawn (v : View α) (parent : TaskId) (children : List (Task α))
    (live : Multiset (Task α)) (held : Multiset Reservation) : View α :=
  { v with
    live := children + live
    held := held
    log := v.log ++ children.map fun child => .spawn parent child.taskId
    nextTaskId := v.nextTaskId + children.length }

/-- The successors inherit the trackers and the reservation is to be given back. -/
def View.advance (v : View α) (reservation : Reservation) (children : List (Task α))
    (live : Multiset (Task α)) (held : Multiset Reservation) : View α :=
  { v.spawn reservation.task children live held with
    due := .release reservation none ::ₘ v.due }

/-- The children get a tracker of their own, which takes over the reservation. -/
def View.defer (v : View α) (tracker : JoinTracker) (children : List (Task α))
    (live : Multiset (Task α)) (held : Multiset Reservation) : View α :=
  { v.spawn tracker.parentTask children live held with
    trackers := v.trackers ++ [tracker] }

def View.signal (v : View α) (k : TrackerId) (tracker : JoinTracker)
    (finishing : Multiset TrackerId) : View α :=
  { v with
    finishing := finishing
    trackers := v.trackers.set k tracker.afterChild
    due := tracker.firing k + v.due }

inductive Effect (stages : List (Stage α)) :
    KVMemoryManager → View α → KVMemoryManager → View α → Prop
  /-- queues, control and capacities only -/
  | silent {kv kv' : KVMemoryManager} {v : View α}
      (used : ∀ s, kv'.used s = kv.used s) (inflight : ∀ s, kv'.inflight s = kv.inflight s) :
      Effect stages kv v kv' v
  | start {kv kv' : KVMemoryManager} {v : View α} (ratios : MapRatios) (task : Task α)
      (stage : Stage α) (member : task ∈ v.live)
      (idle : ∀ reservation ∈ v.held, reservation.task ≠ task.taskId)
      (found : stages[task.stageIndex]? = some stage)
      (reserves : kv.Reserves kv' stage.stageId (stage.estimateBudget ratios task)) :
      Effect stages kv v kv' { v with
        held := ⟨task.taskId, stage.stageId, stage.estimateBudget ratios task⟩ ::ₘ v.held
        log := v.log ++
          [.reserve ⟨task.taskId, stage.stageId, stage.estimateBudget ratios task⟩] }
  | raise {kv : KVMemoryManager} {v : View α} {task : Task α} {stage : Stage α} {budget : Int}
      {live : Multiset (Task α)} {held : Multiset Reservation}
      (completes : Completes stages v task stage budget live held)
      (raised : stage.successors task.position = none) :
      Effect stages kv v kv { v with
        live := live
        held := held
        due := .release ⟨task.taskId, stage.stageId, budget⟩ none ::ₘ v.due
        failing := true }
  | drop {kv : KVMemoryManager} {v : View α} {task : Task α} {stage : Stage α} {budget : Int}
      {live : Multiset (Task α)} {held : Multiset Reservation}
      (completes : Completes stages v task stage budget live held) (ownPin : Option RequestId)
      (dropped : stage.successors task.position = some []) :
      Effect stages kv v kv { v with
        live := live
        held := held
        due := (ownPin.toList.map fun request => .unpin request none : List ExecEvent) +
          .release ⟨task.taskId, stage.stageId, budget⟩ none ::ₘ v.due
        finishing := task.trackers + v.finishing }
  | advance {kv : KVMemoryManager} {v : View α} {task : Task α} {stage : Stage α}
      {budget : Int} {live : Multiset (Task α)} {held : Multiset Reservation}
      (completes : Completes stages v task stage budget live held)
      {positions : List (Position α)} {children : List (Task α)}
      (goes : stage.successors task.position = some positions) (nonempty : positions ≠ [])
      (fresh : Children v.nextTaskId task.trackers positions children) :
      Effect stages kv v kv
        (v.advance ⟨task.taskId, stage.stageId, budget⟩ children live held)
  | defer {kv : KVMemoryManager} {v : View α} {task : Task α} {stage : Stage α}
      {budget : Int} {live : Multiset (Task α)} {held : Multiset Reservation}
      (completes : Completes stages v task stage budget live held) (request : RequestId)
      {positions : List (Position α)} {children : List (Task α)}
      (goes : stage.successors task.position = some positions) (nonempty : positions ≠ [])
      (fresh : Children v.nextTaskId (task.trackers ++ [v.trackers.length]) positions
        children) :
      Effect stages kv v kv
        (v.defer ⟨task.taskId, some request, positions.length, stage.stageId, budget⟩ children
          live held)
  | emit {kv : KVMemoryManager} {v : View α} (task : Task α) {live : Multiset (Task α)}
      (leaves : v.live = task ::ₘ live) (final : stages.length ≤ task.stageIndex) :
      Effect stages kv v kv { v with
        live := live
        out := v.out ++ [task.ctx]
        finishing := task.trackers + v.finishing }
  | childFinished {kv : KVMemoryManager} {v : View α} (k : TrackerId) (tracker : JoinTracker)
      {finishing : Multiset TrackerId} (told : v.finishing = k ::ₘ finishing)
      (found : v.trackers[k]? = some tracker) :
      Effect stages kv v kv (v.signal k tracker finishing)
  | unpin {kv : KVMemoryManager} {v : View α} (request : RequestId)
      (tracker : Option TrackerId) {due : Multiset ExecEvent}
      (isDue : v.due = .unpin request tracker ::ₘ due) :
      Effect stages kv v kv { v with due := due, log := v.log ++ [.unpin request tracker] }
  | release {kv kv' : KVMemoryManager} {v : View α} (reservation : Reservation)
      (tracker : Option TrackerId) {due : Multiset ExecEvent}
      (isDue : v.due = .release reservation tracker ::ₘ due)
      (releases : kv.Releases kv' reservation.stageId reservation.budget) :
      Effect stages kv v kv'
        { v with due := due, log := v.log ++ [.release reservation tracker] }

/-! ## Identity of tasks and trackers -/

/-- Live tasks have distinct ids from below the counter, hold no reservation of their own
and refer to trackers that exist. -/
structure View.Sound (v : View α) : Prop where
  ids_nodup : (v.live.map Task.taskId).Nodup
  ids_lt : ∀ task ∈ v.live, task.taskId < v.nextTaskId
  unreserved : ∀ task ∈ v.live, task.reservedBudget = 0
  trackers_lt : ∀ task ∈ v.live, ∀ k ∈ task.trackers, k < v.trackers.length
  finishing_lt : ∀ k ∈ v.finishing, k < v.trackers.length

namespace View.Sound

variable {v : View α}

theorem leave (sound : v.Sound) {task : Task α} {live : Multiset (Task α)}
    (leaves : v.live = task ::ₘ live) (v' : View α) (liveEq : v'.live = live)
    (finishingLe : v'.finishing ≤ task.trackers + v.finishing)
    (trackersEq : v'.trackers = v.trackers) (nextEq : v'.nextTaskId = v.nextTaskId) : v'.Sound := by
  have subset : ∀ t ∈ v'.live, t ∈ v.live := by
    intro t member
    rw [leaves, ← liveEq]
    exact Multiset.mem_cons_of_mem member
  have nodup := sound.ids_nodup
  rw [leaves, Multiset.map_cons, Multiset.nodup_cons] at nodup
  refine ⟨?_, ?_, ?_, ?_, ?_⟩
  · rw [liveEq]
    exact nodup.2
  · intro t member
    rw [nextEq]
    exact sound.ids_lt t (subset t member)
  · intro t member
    exact sound.unreserved t (subset t member)
  · intro t member
    rw [trackersEq]
    exact sound.trackers_lt t (subset t member)
  · intro k member
    rw [trackersEq]
    rcases Multiset.mem_add.mp (Multiset.mem_of_le finishingLe member) with own | old
    · apply sound.trackers_lt task _ k (Multiset.mem_coe.mp own)
      rw [leaves]
      exact Multiset.mem_cons_self task live
    · exact sound.finishing_lt k old

theorem spawn (sound : v.Sound) {task : Task α} {live : Multiset (Task α)}
    (leaves : v.live = task ::ₘ live) {trackers : List TrackerId}
    {positions : List (Position α)} {children : List (Task α)}
    (fresh : Children v.nextTaskId trackers positions children) (v' : View α)
    (liveEq : v'.live = children + live) (finishingEq : v'.finishing = v.finishing)
    (nextEq : v'.nextTaskId = v.nextTaskId + children.length)
    (grows : v.trackers.length ≤ v'.trackers.length)
    (known : ∀ k ∈ trackers, k < v'.trackers.length) : v'.Sound := by
  have old : ∀ t ∈ live, t ∈ v.live := by
    intro t member
    rw [leaves]
    exact Multiset.mem_cons_of_mem member
  have nodup := sound.ids_nodup
  rw [leaves, Multiset.map_cons, Multiset.nodup_cons] at nodup
  have cases : ∀ t ∈ v'.live, t ∈ children ∨ t ∈ live := by
    intro t member
    rw [liveEq, Multiset.mem_add, Multiset.mem_coe] at member
    exact member
  refine ⟨?_, ?_, ?_, ?_, ?_⟩
  · rw [liveEq, Multiset.map_add]
    apply (Multiset.Nodup.add_iff (Multiset.coe_nodup.mpr fresh.ids_nodup) nodup.2).mpr
    rw [Multiset.disjoint_left]
    intro id childId oldId
    obtain ⟨child, isChild, rfl⟩ := List.mem_map.mp (Multiset.mem_coe.mp childId)
    obtain ⟨t, isOld, same⟩ := Multiset.mem_map.mp oldId
    have lower := (fresh.id_range isChild).1
    have upper := sound.ids_lt t (old t isOld)
    rw [same] at upper
    exact absurd lower (Nat.not_le.mpr upper)
  · intro t member
    rw [nextEq]
    rcases cases t member with isChild | isOld
    · exact (fresh.id_range isChild).2
    · exact Nat.lt_of_lt_of_le (sound.ids_lt t (old t isOld)) (Nat.le_add_right _ _)
  · intro t member
    rcases cases t member with isChild | isOld
    · exact fresh.unreserved t isChild
    · exact sound.unreserved t (old t isOld)
  · intro t member k carried
    rcases cases t member with isChild | isOld
    · rw [fresh.trackers t isChild] at carried
      exact known k carried
    · exact Nat.lt_of_lt_of_le (sound.trackers_lt t (old t isOld) k carried) grows
  · intro k member
    rw [finishingEq] at member
    exact Nat.lt_of_lt_of_le (sound.finishing_lt k member) grows

theorem congr (sound : v.Sound) (v' : View α) (liveEq : v'.live = v.live)
    (finishingLe : v'.finishing ≤ v.finishing) (lengthEq : v'.trackers.length = v.trackers.length)
    (nextEq : v'.nextTaskId = v.nextTaskId) : v'.Sound := by
  refine ⟨?_, ?_, ?_, ?_, ?_⟩
  · rw [liveEq]
    exact sound.ids_nodup
  · rw [liveEq, nextEq]
    exact sound.ids_lt
  · rw [liveEq]
    exact sound.unreserved
  · rw [liveEq, lengthEq]
    exact sound.trackers_lt
  · intro k member
    rw [lengthEq]
    exact sound.finishing_lt k (Multiset.mem_of_le finishingLe member)

end View.Sound

theorem Completes.mem {stages : List (Stage α)} {v : View α} {task : Task α} {stage : Stage α}
    {budget : Int} {live : Multiset (Task α)} {held : Multiset Reservation}
    (completes : Completes stages v task stage budget live held) : task ∈ v.live := by
  rw [completes.leaves]
  exact Multiset.mem_cons_self task live

theorem Effect.sound {stages : List (Stage α)} {kv kv' : KVMemoryManager} {v v' : View α}
    (effect : Effect stages kv v kv' v') (sound : v.Sound) : v'.Sound := by
  cases effect with
  | silent => exact sound
  | start | unpin | release => exact sound.congr _ rfl le_rfl rfl rfl
  | raise completes raised =>
    exact sound.leave completes.leaves _ rfl (Multiset.le_add_left _ _) rfl rfl
  | drop completes ownPin dropped => exact sound.leave completes.leaves _ rfl le_rfl rfl rfl
  | advance completes goes nonempty fresh =>
    exact sound.spawn completes.leaves fresh _ rfl rfl rfl le_rfl
      (sound.trackers_lt _ completes.mem)
  | defer completes request goes nonempty fresh =>
    refine sound.spawn completes.leaves fresh _ rfl rfl rfl ?_ ?_
    · simp [View.defer]
    · intro k carried
      rw [List.mem_append, List.mem_singleton] at carried
      simp only [View.defer, List.length_append, List.length_singleton]
      rcases carried with own | new
      · exact Nat.lt_succ_of_lt (sound.trackers_lt _ completes.mem k own)
      · exact Nat.lt_succ_of_le (Nat.le_of_eq new)
  | emit task leaves final => exact sound.leave leaves _ rfl le_rfl rfl rfl
  | childFinished k tracker told found =>
    refine sound.congr _ rfl ?_ List.length_set rfl
    rw [told]
    exact Multiset.le_cons_self _ k

theorem Effect.nextTaskId_le {stages : List (Stage α)} {kv kv' : KVMemoryManager}
    {v v' : View α} (effect : Effect stages kv v kv' v') : v.nextTaskId ≤ v'.nextTaskId := by
  cases effect with
  | advance | defer => exact Nat.le_add_right _ _
  | _ => exact Nat.le_refl _

end Kalypso.Query
