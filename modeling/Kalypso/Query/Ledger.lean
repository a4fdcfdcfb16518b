import Mathlib.Data.Multiset.Bind
import Kalypso.Query.Registration
import Kalypso.Query.Runs
import Kalypso.Query.Termination
import Kalypso.Query.Trackers

/-!
# The ledger of reservations

A reservation that was made and not given back is outstanding: it is held by a running task,
detached from a finished one with its release still to come, or kept by a `JoinTracker` that
has not fired.  Whatever a step does, it is one of four entries in this ledger (`Transfer`):
a reservation is made, one is given back, one of no bytes is forgotten, or nothing changes
hands.  The counters of the memory manager follow the ledger, and the clamp of
`release_stage` is never reached.
-/

set_option autoImplicit false

namespace Kalypso.Query

open Kalypso.Lib

variable {α : Type}

/-! ## Outstanding reservations -/

def ExecEvent.made : ExecEvent → List Reservation
  | .reserve reservation => [reservation]
  | _ => []

def ExecEvent.returned : ExecEvent → List Reservation
  | .release reservation _ => [reservation]
  | _ => []

open ExecEvent

def reserved (log : List ExecEvent) : List Reservation := log.flatMap made

def released (log : List ExecEvent) : List Reservation := log.flatMap returned

def JoinTracker.unfired (tracker : JoinTracker) : Multiset Reservation :=
  if 0 < tracker.pendingChildren then {tracker.reservation} else 0

namespace View

/-- Detached from a finished task, or from a tracker that fires, and not yet released. -/
def detached (v : View α) : Multiset Reservation :=
  v.due.bind fun event => (event.returned : Multiset Reservation)

def deferred (v : View α) : Multiset Reservation := (v.trackers.map JoinTracker.unfired).sum

def outstanding (v : View α) : Multiset Reservation := v.held + v.detached + v.deferred

end View

/-! ## Entries -/

def Starts (stages : List (Stage α)) (v : View α) (reservation : Reservation) : Prop :=
  ∃ (ratios : MapRatios) (task : Task α) (stage : Stage α), task ∈ v.live ∧
    stages[task.stageIndex]? = some stage ∧ (∀ r ∈ v.held, r.task ≠ task.taskId) ∧
    reservation = ⟨task.taskId, stage.stageId, stage.estimateBudget ratios task⟩

/-- What a step does to the outstanding reservations, the history and the two counters. -/
inductive Transfer (stages : List (Stage α)) (kv : KVMemoryManager) (v : View α)
    (kv' : KVMemoryManager) (v' : View α) : Prop
  | keep (used : ∀ s, kv'.used s = kv.used s) (inflight : ∀ s, kv'.inflight s = kv.inflight s)
      (same : v'.outstanding = v.outstanding) (made : reserved v'.log = reserved v.log)
      (returned : released v'.log = released v.log)
  | forget (reservation : Reservation) (empty : reservation.budget ≤ 0)
      (used : ∀ s, kv'.used s = kv.used s) (inflight : ∀ s, kv'.inflight s = kv.inflight s)
      (less : v.outstanding = reservation ::ₘ v'.outstanding)
      (made : reserved v'.log = reserved v.log) (returned : released v'.log = released v.log)
  | reserve (reservation : Reservation) (starts : Starts stages v reservation)
      (reserves : kv.Reserves kv' reservation.stageId reservation.budget)
      (more : v'.outstanding = reservation ::ₘ v.outstanding)
      (made : reserved v'.log = reserved v.log ++ [reservation])
      (returned : released v'.log = released v.log)
  | release (reservation : Reservation)
      (releases : kv.Releases kv' reservation.stageId reservation.budget)
      (less : v.outstanding = reservation ::ₘ v'.outstanding)
      (made : reserved v'.log = reserved v.log)
      (returned : released v'.log = released v.log ++ [reservation])

section Transfer

variable {stages : List (Stage α)} {kv kv' : KVMemoryManager} {v v' : View α}

theorem reserved_spawn (log : List ExecEvent) (parent : TaskId) (children : List (Task α)) :
    reserved (log ++ children.map fun child => .spawn parent child.taskId) = reserved log := by
  simp [reserved, List.flatMap_append, List.flatMap_map, made]

theorem released_spawn (log : List ExecEvent) (parent : TaskId) (children : List (Task α)) :
    released (log ++ children.map fun child => .spawn parent child.taskId) = released log := by
  simp [released, List.flatMap_append, List.flatMap_map, returned]

theorem firing_returned (tracker : JoinTracker) (k : TrackerId) :
    (tracker.firing k : Multiset ExecEvent).bind
        (fun event => (event.returned : Multiset Reservation)) =
      if tracker.pendingChildren - 1 = 0 ∧ 0 < tracker.reservedBudget then
        {tracker.reservation} else 0 := by
  unfold JoinTracker.firing
  by_cases last : tracker.pendingChildren - 1 = 0
  · by_cases holds : 0 < tracker.reservedBudget
    · rw [if_pos last, if_pos holds, if_pos ⟨last, holds⟩]
      cases tracker.parentPin with
      | none => rfl
      | some request => rfl
    · rw [if_pos last, if_neg holds, if_neg (fun both => holds both.2)]
      cases tracker.parentPin with
      | none => rfl
      | some request => rfl
  · rw [if_neg last, if_neg (fun both => last both.1)]
    rfl

/-- A tracker that is told of a child keeps its reservation, passes it on, or forgets one of
no bytes. -/
theorem unfired_afterChild (tracker : JoinTracker) (k : TrackerId) :
    tracker.unfired = tracker.afterChild.unfired +
        (tracker.firing k : Multiset ExecEvent).bind
          (fun event => (event.returned : Multiset Reservation)) ∨
      tracker.reservation.budget ≤ 0 ∧
        tracker.unfired = tracker.reservation ::ₘ (tracker.afterChild.unfired +
          (tracker.firing k : Multiset ExecEvent).bind
            (fun event => (event.returned : Multiset Reservation))) := by
  rw [firing_returned]
  have same : tracker.afterChild.reservation = tracker.reservation := rfl
  have less : tracker.afterChild.pendingChildren = tracker.pendingChildren - 1 := rfl
  simp only [JoinTracker.unfired, same, less]
  by_cases last : tracker.pendingChildren - 1 = 0
  · rw [if_pos (show 0 < tracker.pendingChildren by omega),
      if_neg (show ¬ 0 < tracker.pendingChildren - 1 by omega), zero_add]
    by_cases holds : 0 < tracker.reservedBudget
    · left
      rw [if_pos ⟨last, holds⟩]
    · right
      rw [if_neg (fun both => holds both.2)]
      exact ⟨not_lt.mp holds, rfl⟩
  · left
    have notFired : ¬ (tracker.pendingChildren - 1 = 0 ∧ 0 < tracker.reservedBudget) :=
      fun both => last both.1
    rw [if_neg notFired, add_zero]
    exact if_congr (by omega) rfl rfl

theorem deferred_signal (k : TrackerId) (tracker : JoinTracker)
    (finishing : Multiset TrackerId) (found : v.trackers[k]? = some tracker) :
    (v.signal k tracker finishing).detached + (v.signal k tracker finishing).deferred =
        v.detached + v.deferred ∨
      tracker.reservation.budget ≤ 0 ∧ v.detached + v.deferred = tracker.reservation ::ₘ
        ((v.signal k tracker finishing).detached +
          (v.signal k tracker finishing).deferred) := by
  obtain ⟨others, before, after⟩ :=
    exists_sum_map_set JoinTracker.unfired v.trackers k tracker found
  have detachedEq : (v.signal k tracker finishing).detached =
      (tracker.firing k : Multiset ExecEvent).bind
        (fun event => (event.returned : Multiset Reservation)) + v.detached :=
    Multiset.add_bind _ _ _
  have deferredEq : (v.signal k tracker finishing).deferred =
      tracker.afterChild.unfired + others := after tracker.afterChild
  rw [detachedEq, deferredEq, View.deferred, before]
  rcases unfired_afterChild tracker k with kept | ⟨empty, forgotten⟩
  · left
    rw [kept]
    abel
  · right
    refine ⟨empty, ?_⟩
    rw [forgotten, ← Multiset.singleton_add, ← Multiset.singleton_add]
    abel

/-- A completed task has its reservation taken out of `held` and put elsewhere. -/
theorem outstanding_move {task : Task α} {stage : Stage α} {budget : Int}
    {live : Multiset (Task α)} {held : Multiset Reservation}
    (completes : Completes stages v task stage budget live held) (heldEq : v'.held = held)
    (moved : v'.detached + v'.deferred =
      ⟨task.taskId, stage.stageId, budget⟩ ::ₘ (v.detached + v.deferred)) :
    v'.outstanding = v.outstanding := by
  rw [View.outstanding, View.outstanding, completes.holds, heldEq, add_assoc, moved, add_assoc,
    Multiset.cons_add, Multiset.add_cons]

theorem Effect.transfer (effect : Effect stages kv v kv' v') : Transfer stages kv v kv' v' := by
  cases effect with
  | silent used inflight => exact .keep used inflight rfl rfl rfl
  | start ratios task stage member idle found reserves =>
    refine .reserve ⟨task.taskId, stage.stageId, stage.estimateBudget ratios task⟩
      ⟨ratios, task, stage, member, found, idle, rfl⟩ reserves ?_ ?_ ?_
    · simp [View.outstanding, View.detached, View.deferred]
    · simp [reserved, made]
    · simp [released, returned]
  | raise completes raised =>
    refine .keep (fun _ => rfl) (fun _ => rfl) (outstanding_move completes rfl ?_) rfl rfl
    simp [View.detached, View.deferred, returned]
  | drop completes ownPin dropped =>
    refine .keep (fun _ => rfl) (fun _ => rfl) (outstanding_move completes rfl ?_) rfl rfl
    have noReturn : ((ownPin.toList.map fun request => .unpin request none : List ExecEvent) :
        Multiset ExecEvent).bind (fun event => (event.returned : Multiset Reservation)) = 0 := by
      cases ownPin <;> rfl
    simp only [View.detached, View.deferred, Multiset.add_bind, Multiset.cons_bind, noReturn]
    simp [returned]
  | advance completes goes nonempty fresh =>
    refine .keep (fun _ => rfl) (fun _ => rfl) (outstanding_move completes rfl ?_)
      (reserved_spawn _ _ _) (released_spawn _ _ _)
    simp [View.detached, View.deferred, View.advance, View.spawn, returned]
  | defer completes request goes nonempty fresh =>
    refine .keep (fun _ => rfl) (fun _ => rfl) (outstanding_move completes rfl ?_)
      (reserved_spawn _ _ _) (released_spawn _ _ _)
    have pending := List.length_pos_iff.mpr nonempty
    simp only [View.detached, View.deferred, View.defer, View.spawn, JoinTracker.unfired,
      JoinTracker.reservation, List.map_append, List.sum_append, List.map_singleton,
      List.sum_singleton, Int.natCast_pos, if_pos pending, ← Multiset.singleton_add]
    abel
  | emit => exact .keep (fun _ => rfl) (fun _ => rfl) rfl rfl rfl
  | childFinished k tracker told found =>
    rcases deferred_signal k tracker _ found with kept | ⟨empty, forgotten⟩
    · refine .keep (fun _ => rfl) (fun _ => rfl) ?_ rfl rfl
      rw [View.outstanding, View.outstanding, add_assoc, add_assoc, kept]
      rfl
    · refine .forget tracker.reservation empty (fun _ => rfl) (fun _ => rfl) ?_ rfl rfl
      rw [View.outstanding, View.outstanding, add_assoc, add_assoc, forgotten,
        Multiset.add_cons]
      rfl
  | unpin request tracker isDue =>
    refine .keep (fun _ => rfl) (fun _ => rfl) ?_ ?_ ?_
    · simp [View.outstanding, View.detached, View.deferred, isDue, returned]
    · simp [reserved, made]
    · simp [released, returned]
  | release reservation tracker isDue releases =>
    refine .release reservation releases ?_ ?_ ?_
    · simp [View.outstanding, View.detached, View.deferred, isDue, returned]
    · simp [reserved, made]
    · simp [released, returned]

end Transfer

/-! ## The counters follow the ledger -/

/-- One of the two counters of the memory manager, with what a reservation counts there. -/
structure Counter where
  read : KVMemoryManager → StageId → Int
  weight : Reservation → Int
  same : ∀ {kv kv' : KVMemoryManager}, (∀ s, kv'.used s = kv.used s) →
    (∀ s, kv'.inflight s = kv.inflight s) → ∀ s, read kv' s = read kv s
  reserves : ∀ {kv kv' : KVMemoryManager} {reservation : Reservation},
    kv.Reserves kv' reservation.stageId reservation.budget → ∀ s,
      read kv' s = read kv s + if s = reservation.stageId then weight reservation else 0
  releases : ∀ {kv kv' : KVMemoryManager} {reservation : Reservation},
    kv.Releases kv' reservation.stageId reservation.budget → ∀ s,
      read kv' s = if s = reservation.stageId then max 0 (read kv s - weight reservation)
        else read kv s
  resets : ∀ {kv kv' : KVMemoryManager} {ids : List StageId}, kv.Resets kv' ids → ∀ s,
    read kv' s = if s ∈ ids then 0 else read kv s

def usedBytes : Counter where
  read := KVMemoryManager.used
  weight := Reservation.budget
  same := fun used _ => used
  reserves := fun reserves => reserves.used
  releases := fun releases => releases.used
  resets := fun resets => resets.used

def inflightCount : Counter where
  read := KVMemoryManager.inflight
  weight := fun _ => 1
  same := fun _ inflight => inflight
  reserves := fun reserves => reserves.inflight
  releases := fun releases => releases.inflight
  resets := fun resets => resets.inflight

def Counter.total (c : Counter) (s : StageId) (reservations : Multiset Reservation) : Int :=
  (reservations.map fun r => if s = r.stageId then c.weight r else 0).sum

/-- The counter agrees with the reservations, on the stages that `on` selects. -/
def Counter.Balanced (c : Counter) (on : StageId → Prop) (kv : KVMemoryManager)
    (reservations : Multiset Reservation) : Prop :=
  ∀ s, on s → c.read kv s = c.total s reservations

/-- A reservation that counts nothing negative, and nothing if it has no bytes. -/
def Counter.Light (c : Counter) (reservation : Reservation) : Prop :=
  0 ≤ c.weight reservation ∧ (reservation.budget ≤ 0 → c.weight reservation = 0)

section Counter

variable {c : Counter} {on : StageId → Prop} {stages : List (Stage α)}
  {kv kv' : KVMemoryManager} {v v' : View α}
  {others : Multiset Reservation}

theorem Counter.total_cons (s : StageId) (reservation : Reservation)
    (reservations : Multiset Reservation) :
    c.total s (reservation ::ₘ reservations) =
      (if s = reservation.stageId then c.weight reservation else 0) +
        c.total s reservations := by
  rw [Counter.total, Multiset.map_cons, Multiset.sum_cons]
  rfl

theorem Counter.total_add (s : StageId) (first second : Multiset Reservation) :
    c.total s (first + second) = c.total s first + c.total s second := by
  rw [Counter.total, Multiset.map_add, Multiset.sum_add]
  rfl

variable {reservations : Multiset Reservation}

theorem Counter.total_nonneg (light : ∀ r ∈ reservations, c.Light r) (s : StageId) :
    0 ≤ c.total s reservations := by
  apply Multiset.sum_nonneg
  intro x member
  obtain ⟨r, present, rfl⟩ := Multiset.mem_map.mp member
  split
  · exact (light r present).1
  · exact le_refl 0

/-- A counter follows the outstanding reservations, from whatever it was without them. -/
theorem Transfer.follows {base : Int} {s : StageId} (transfer : Transfer stages kv v kv' v')
    (light : ∀ r ∈ v.outstanding, c.Light r) (nonneg : 0 ≤ base)
    (before : c.read kv s = base + c.total s v.outstanding) :
    c.read kv' s = base + c.total s v'.outstanding := by
  cases transfer with
  | keep used inflight same =>
    rw [c.same used inflight, before, same]
  | forget reservation empty used inflight less =>
    have weightless := (light reservation (by rw [less]; simp)).2 empty
    rw [c.same used inflight, before, less, Counter.total_cons, weightless]
    simp
  | reserve reservation starts reserves more =>
    rw [c.reserves reserves, before, more, Counter.total_cons]
    omega
  | release reservation releases less =>
    have rest : ∀ r ∈ v'.outstanding, c.Light r := by
      intro r member
      apply light
      rw [less]
      exact Multiset.mem_cons_of_mem member
    have restNonneg := Counter.total_nonneg rest s
    rw [less, Counter.total_cons] at before
    rw [c.releases releases, before]
    split
    · omega
    · omega

theorem Transfer.balanced (transfer : Transfer stages kv v kv' v')
    (balanced : c.Balanced on kv (v.outstanding + others))
    (light : ∀ r ∈ v.outstanding + others, c.Light r) :
    c.Balanced on kv' (v'.outstanding + others) := by
  intro s selected
  have nonneg : 0 ≤ c.total s others :=
    Counter.total_nonneg (fun r member => light r (Multiset.mem_add.mpr (.inr member))) s
  have before := balanced s selected
  rw [Counter.total_add, add_comm] at before
  rw [Counter.total_add, add_comm]
  exact transfer.follows
    (fun r member => light r (Multiset.mem_add.mpr (.inl member))) nonneg before

theorem Counter.total_eq_zero {s : StageId} (elsewhere : ∀ r ∈ reservations, r.stageId ≠ s) :
    c.total s reservations = 0 := by
  apply Multiset.sum_eq_zero
  intro x member
  obtain ⟨r, present, rfl⟩ := Multiset.mem_map.mp member
  exact if_neg (Ne.symm (elsewhere r present))

theorem Counter.Balanced.reset {ids : List StageId} (balanced : c.Balanced on kv reservations)
    (resets : kv.Resets kv' ids) (apart : ∀ r ∈ reservations, r.stageId ∉ ids) :
    c.Balanced on kv' reservations := by
  intro s selected
  rw [c.resets resets]
  split
  · rename_i member
    symm
    apply Counter.total_eq_zero
    intro r present same
    exact apart r present (same ▸ member)
  · exact balanced s selected

theorem Counter.Balanced.covers {reservation : Reservation}
    (balanced : c.Balanced on kv reservations) (light : ∀ r ∈ reservations, c.Light r)
    (member : reservation ∈ reservations) (selected : on reservation.stageId) :
    c.weight reservation ≤ c.read kv reservation.stageId := by
  obtain ⟨rest, split⟩ := Multiset.exists_cons_of_mem member
  have nonneg : 0 ≤ c.total reservation.stageId rest := by
    apply Counter.total_nonneg
    intro r present
    apply light
    rw [split]
    exact Multiset.mem_cons_of_mem present
  rw [balanced _ selected, split, Counter.total_cons, if_pos rfl]
  omega

end Counter

/-! ## How much is reserved -/

/-- A task that still has an operator to run reserves at least `least` bytes. -/
def Stage.ReservesAtLeast (stage : Stage α) (least : Int) : Prop :=
  ∀ (ratios : MapRatios) (task : Task α), task.opIndex < stage.operators.length →
    least ≤ stage.estimateBudget ratios task

theorem Stage.reservesAtLeast {stage : Stage α} (tokens : Nat)
    (estimates : ∀ op ∈ stage.operators, ∀ ratios ctx, tokens ≤ op.estimateTokens ratios ctx) :
    stage.ReservesAtLeast (tokens * stage.bytesPerToken) := by
  intro ratios task bound
  have atLeast := estimates _ (List.getElem_mem bound) ratios task.ctx
  have member : stage.operators[task.opIndex] ∈ stage.operators.drop task.opIndex := by
    rw [List.drop_eq_getElem_cons bound]
    exact List.mem_cons_self
  have boundary := Stage.estimate_le_maxBoundary ratios task.ctx member
  rw [Stage.estimateBudget]
  exact Int.mul_le_mul_of_nonneg_right (le_trans (by exact_mod_cast atLeast) boundary)
    (Int.natCast_nonneg _)

def View.Runnable (stages : List (Stage α)) (v : View α) : Prop :=
  ∀ task ∈ v.live, ∀ stage, stages[task.stageIndex]? = some stage →
    task.opIndex < stage.operators.length

section Runnable

variable {stages : List (Stage α)} {kv kv' : KVMemoryManager} {v v' : View α}

theorem successors_runnable (nonempty : ∀ stage ∈ stages, stage.operators ≠ [])
    {stage : Stage α} {p : Position α} (found : stages[p.stageIndex]? = some stage)
    {positions : List (Position α)} (goes : stage.successors p = some positions) :
    ∀ q ∈ positions, ∀ next, stages[q.stageIndex]? = some next →
      q.opIndex < next.operators.length := by
  intro q member next foundNext
  unfold Stage.successors at goes
  split at goes
  · cases goes
  · rename_i ctx opIndex retainBudget result
    cases goes
    rw [List.mem_singleton.mp member] at foundNext ⊢
    rw [found] at foundNext
    cases foundNext
    obtain ⟨-, j, op, -, rfl, atOp, -⟩ := Stage.runOperators_retry result
    rw [List.getElem?_drop] at atOp
    exact (List.getElem?_eq_some_iff.mp atOp).1
  · cases goes
    cases member
  · cases goes
    obtain ⟨child, -, rfl⟩ := List.mem_map.mp member
    exact List.length_pos_iff.mpr (nonempty next (List.mem_of_getElem? foundNext))

/-- Live tasks at the given positions join some that were live before. -/
theorem View.Runnable.spawn (runnable : v.Runnable stages) {live : Multiset (Task α)}
    (remain : ∀ t ∈ live, t ∈ v.live) {children : List (Task α)}
    {positions : List (Position α)} (positionsEq : children.map Task.position = positions)
    (fine : ∀ q ∈ positions, ∀ next, stages[q.stageIndex]? = some next →
      q.opIndex < next.operators.length) (liveEq : v'.live = children + live) :
    v'.Runnable stages := by
  intro t member stage found
  rw [liveEq, Multiset.mem_add, Multiset.mem_coe] at member
  rcases member with isChild | old
  · apply fine t.position _ stage found
    rw [← positionsEq]
    exact List.mem_map_of_mem isChild
  · exact runnable t (remain t old) stage found

theorem Effect.runnable (effect : Effect stages kv v kv' v')
    (nonempty : ∀ stage ∈ stages, stage.operators ≠ []) (runnable : v.Runnable stages) :
    v'.Runnable stages := by
  have leave : ∀ {task : Task α} {live : Multiset (Task α)}, v.live = task ::ₘ live →
      ∀ t ∈ live, t ∈ v.live := by
    intro task live leaves t member
    rw [leaves]
    exact Multiset.mem_cons_of_mem member
  cases effect with
  | silent => exact runnable
  | start => exact runnable
  | raise completes raised | drop completes ownPin dropped =>
    exact fun t member => runnable t (leave completes.leaves t member)
  | advance completes goes _ fresh | defer completes request goes _ fresh =>
    exact runnable.spawn (leave completes.leaves) fresh.positions
      (successors_runnable nonempty completes.found goes) rfl
  | emit task leaves final => exact fun t member => runnable t (leave leaves t member)
  | childFinished => exact runnable
  | unpin => exact runnable
  | release => exact runnable

theorem Transfer.budgets {least : Int} (transfer : Transfer stages kv v kv' v')
    (atLeast : ∀ stage ∈ stages, stage.ReservesAtLeast least) (runnable : v.Runnable stages)
    (budgets : ∀ r ∈ v.outstanding, least ≤ r.budget) : ∀ r ∈ v'.outstanding, least ≤ r.budget := by
  intro r member
  cases transfer with
  | keep _ _ same =>
    rw [same] at member
    exact budgets r member
  | forget reservation _ _ _ less | release reservation _ less =>
    apply budgets
    rw [less]
    exact Multiset.mem_cons_of_mem member
  | reserve reservation starts reserves more =>
    rw [more] at member
    rcases Multiset.mem_cons.mp member with rfl | old
    · obtain ⟨ratios, task, stage, live, found, -, rfl⟩ := starts
      exact atLeast stage (List.mem_of_getElem? found) ratios task
        (runnable task live stage found)
    · exact budgets r old

end Runnable

/-! ## Released exactly once -/

/-- Every task makes at most one reservation, and every reservation made has been given back
once or is outstanding. -/
structure View.Ledger (v : View α) : Prop where
  once : ((reserved v.log).map Reservation.task).Nodup
  balance : (reserved v.log : Multiset Reservation) = released v.log + v.outstanding
  known : ∀ r ∈ reserved v.log, r.task < v.nextTaskId
  running : ∀ r ∈ reserved v.log, ∀ task ∈ v.live, task.taskId = r.task → r ∈ v.held

namespace View.Ledger

variable {stages : List (Stage α)} {v v' : View α}

theorem congr (ledger : v.Ledger) (made : reserved v'.log = reserved v.log)
    (balance : (reserved v'.log : Multiset Reservation) = released v'.log + v'.outstanding)
    (remain : ∀ t ∈ v'.live, t ∈ v.live) (heldEq : v'.held = v.held)
    (nextEq : v'.nextTaskId = v.nextTaskId) : v'.Ledger := by
  refine ⟨?_, balance, ?_, ?_⟩
  · rw [made]
    exact ledger.once
  · rw [made, nextEq]
    exact ledger.known
  · intro r member t live
    rw [made] at member
    rw [heldEq]
    exact ledger.running r member t (remain t live)

/-- A running task is completed and the tasks `children` take its place. -/
theorem complete (ledger : v.Ledger) (sound : v.Sound) {task : Task α} {stage : Stage α}
    {budget : Int} {live : Multiset (Task α)} {held : Multiset Reservation}
    (completes : Completes stages v task stage budget live held) (children : List (Task α))
    (fresh : ∀ child ∈ children, v.nextTaskId ≤ child.taskId)
    (made : reserved v'.log = reserved v.log)
    (balance : (reserved v'.log : Multiset Reservation) = released v'.log + v'.outstanding)
    (liveEq : v'.live = children + live) (heldEq : v'.held = held)
    (grows : v.nextTaskId ≤ v'.nextTaskId) : v'.Ledger := by
  have nodup := sound.ids_nodup
  rw [completes.leaves, Multiset.map_cons, Multiset.nodup_cons] at nodup
  refine ⟨?_, balance, ?_, ?_⟩
  · rw [made]
    exact ledger.once
  · intro r member
    rw [made] at member
    exact Nat.lt_of_lt_of_le (ledger.known r member) grows
  · intro r member t present same
    rw [made] at member
    rw [liveEq, Multiset.mem_add, Multiset.mem_coe] at present
    rcases present with isChild | old
    · have known := ledger.known r member
      rw [← same] at known
      exact absurd (fresh t isChild) (Nat.not_le.mpr known)
    · have wasLive : t ∈ v.live := by
        rw [completes.leaves]
        exact Multiset.mem_cons_of_mem old
      have wasHeld := ledger.running r member t wasLive same
      rw [completes.holds] at wasHeld
      rw [heldEq]
      rcases Multiset.mem_cons.mp wasHeld with own | other
      · have inLive := Multiset.mem_map_of_mem Task.taskId old
        rw [same, own] at inLive
        exact absurd inLive nodup.1
      · exact other

end View.Ledger

section Ledger

variable {stages : List (Stage α)} {kv kv' : KVMemoryManager} {v v' : View α}

theorem Transfer.balance (transfer : Transfer stages kv v kv' v')
    (budgets : ∀ r ∈ v.outstanding, 0 < r.budget)
    (balance : (reserved v.log : Multiset Reservation) = released v.log + v.outstanding) :
    (reserved v'.log : Multiset Reservation) = released v'.log + v'.outstanding := by
  cases transfer with
  | keep _ _ same made returned => rw [made, returned, same, balance]
  | forget reservation empty _ _ less =>
    have positive := budgets reservation (by rw [less]; exact Multiset.mem_cons_self _ _)
    omega
  | reserve reservation starts reserves more made returned =>
    rw [made, returned, more, ← Multiset.coe_add, balance, Multiset.add_cons,
      ← Multiset.singleton_add, Multiset.coe_singleton, add_comm]
  | release reservation releases less made returned =>
    rw [made, returned, balance, less, ← Multiset.coe_add, add_assoc, Multiset.coe_singleton,
      Multiset.singleton_add]

theorem Effect.ledger (effect : Effect stages kv v kv' v') (sound : v.Sound)
    (budgets : ∀ r ∈ v.outstanding, 0 < r.budget) (ledger : v.Ledger) : v'.Ledger := by
  have balance := effect.transfer.balance budgets ledger.balance
  cases effect with
  | silent => exact ledger
  | start ratios task stage member idle found reserves =>
    have made : reserved (v.log ++
        [.reserve ⟨task.taskId, stage.stageId, stage.estimateBudget ratios task⟩]) =
        reserved v.log ++
          [⟨task.taskId, stage.stageId, stage.estimateBudget ratios task⟩] := by
      simp [reserved, made]
    have unmade : ∀ r ∈ reserved v.log, r.task ≠ task.taskId := by
      intro r present same
      exact idle r (ledger.running r present task member same.symm) same
    refine ⟨?_, balance, ?_, ?_⟩
    · rw [made, List.map_append, List.nodup_append]
      refine ⟨ledger.once, List.nodup_singleton _, ?_⟩
      intro a old b new same
      obtain ⟨r, present, rfl⟩ := List.mem_map.mp old
      exact unmade r present (same.trans (List.mem_singleton.mp new))
    · intro r present
      rw [made, List.mem_append, List.mem_singleton] at present
      rcases present with old | rfl
      · exact ledger.known r old
      · exact sound.ids_lt task member
    · intro r present t live same
      rw [made, List.mem_append, List.mem_singleton] at present
      rcases present with old | rfl
      · exact Multiset.mem_cons_of_mem (ledger.running r old t live same)
      · exact Multiset.mem_cons_self _ _
  | raise completes raised | drop completes ownPin dropped =>
    exact ledger.complete sound completes [] (by simp) rfl balance
      (zero_add _).symm rfl (Nat.le_refl _)
  | advance completes goes nonempty fresh | defer completes request goes nonempty fresh =>
    exact ledger.complete sound completes _ (fun child member => (fresh.id_range member).1)
      (reserved_spawn _ _ _) balance rfl rfl (Nat.le_add_right _ _)
  | emit task leaves final =>
    refine ledger.congr rfl balance ?_ rfl rfl
    intro t member
    rw [leaves]
    exact Multiset.mem_cons_of_mem member
  | childFinished => exact ledger.congr rfl balance (fun _ member => member) rfl rfl
  | unpin | release =>
    refine ledger.congr ?_ balance (fun _ member => member) rfl rfl
    simp [reserved, made]

/-- Nothing is outstanding but what running tasks, unfired trackers and the script hold. -/
theorem outstanding_of_idle {m : Machine α} (layout : Layout stages m.kv m.exec)
    (idle : m.exec.active = []) (noDue : (m.exec.view stages).due = 0)
    (fired : ∀ tracker ∈ m.exec.trackers, tracker.pendingChildren ≤ 0) :
    (m.exec.view stages).outstanding = 0 := by
  have noHeld : (m.exec.view stages).held = 0 := by
    apply Multiset.eq_zero_of_forall_notMem
    intro r member
    obtain ⟨-, task, isActive, -⟩ := held_running layout member
    rw [idle] at isActive
    cases isActive
  have noDeferred : (m.exec.view stages).deferred = 0 := by
    apply List.sum_eq_zero
    intro kept member
    obtain ⟨tracker, isTracker, rfl⟩ := List.mem_map.mp member
    exact if_neg (not_lt.mpr (fired tracker isTracker))
  rw [View.outstanding, noHeld, View.detached, noDue, noDeferred]
  rfl

/-- When the loop returns, every tracker has fired and nothing is outstanding. -/
theorem outstanding_of_returned {m : Machine α} (valid : m.Valid stages)
    (counted : (m.exec.view stages).PendingLeLoad)
    (returned : m.exec.control = .returned) : (m.exec.view stages).outstanding = 0 := by
  have noLive := live_of_returned valid returned
  have calm : (m.exec.view stages).failing = false := by
    simp [ExecState.view, returned, Control.failing]
  have noFinishing : (m.exec.view stages).finishing = 0 := by
    simp [ExecState.view, returned, Control.script]
  have ok := valid.control
  simp only [ExecState.ControlOk, returned] at ok
  refine outstanding_of_idle valid.layout ok.1 ?_ ?_
  · simp [ExecState.view, returned, Control.script]
  · intro tracker isTracker
    obtain ⟨k, found⟩ := List.mem_iff_getElem?.mp isTracker
    have pending := counted calm k tracker found
    rw [View.load, noLive, noFinishing, Multiset.map_zero, Multiset.sum_zero,
      Multiset.count_zero] at pending
    omega

end Ledger

end Kalypso.Query
