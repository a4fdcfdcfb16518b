import Kalypso.Lib.Relation
import Kalypso.Query.Runs
import Kalypso.Query.Trackers

/-!
# A pinned parent and the tuples derived from it

The history records which task was created from which.  A tracker should unpin its parent and
give the parent's budget back only when no live tuple is derived from the parent.

It does so in every run in which no tracked task has more than one successor.  With a second
fan-out below a pinned parent it does not: the grandchildren inherit the tracker, and each of
them counts as a finished child.
-/

set_option autoImplicit false

namespace Kalypso.Query

open Kalypso.Lib

variable {α : Type}

def Spawned (log : List ExecEvent) (parent child : TaskId) : Prop := .spawn parent child ∈ log

/-- The tuple of `descendant` was derived from the one of `ancestor`, in one or more steps. -/
def Derived (log : List ExecEvent) : TaskId → TaskId → Prop :=
  Relation.TransGen (Spawned log)

def ExecEvent.tracker : ExecEvent → Option TrackerId
  | .spawn _ _ => none
  | .reserve _ => none
  | .release _ tracker => tracker
  | .unpin _ tracker => tracker

/-- A tracker that has unpinned its parent or released its budget has no live tuple derived
from the parent. -/
def View.ParentsHeld (v : View α) : Prop :=
  ∀ (k : TrackerId) (tracker : JoinTracker), v.trackers[k]? = some tracker →
    ∀ event ∈ v.log, event.tracker = some k →
      ∀ task ∈ v.live, ¬ Derived v.log tracker.parentTask task.taskId

/-! ## A tracker acts only when it has counted down -/

def View.Fired (v : View α) (k : TrackerId) : Prop :=
  ∃ tracker, v.trackers[k]? = some tracker ∧ tracker.pendingChildren ≤ 0

def View.ActsWhenFired (v : View α) : Prop :=
  ∀ event, event ∈ v.log ∨ event ∈ v.due → ∀ k, event.tracker = some k → v.Fired k

section Effect

variable {stages : List (Stage α)} {kv kv' : KVMemoryManager} {v v' : View α}

theorem fired_signal {k j : TrackerId} {tracker : JoinTracker} {finishing : Multiset TrackerId}
    (found : v.trackers[j]? = some tracker) (fired : v.Fired k) :
    (v.signal j tracker finishing).Fired k := by
  obtain ⟨other, atIndex, nonpositive⟩ := fired
  have bound := (List.getElem?_eq_some_iff.mp atIndex).1
  by_cases same : k = j
  · subst same
    rw [found] at atIndex
    cases atIndex
    refine ⟨tracker.afterChild, List.getElem?_set_self bound, ?_⟩
    simp only [JoinTracker.afterChild]
    omega
  · exact ⟨other, by rw [View.signal, List.getElem?_set_ne (Ne.symm same)]; exact atIndex,
      nonpositive⟩

theorem fired_defer {k : TrackerId} {tracker : JoinTracker} {children : List (Task α)}
    {live : Multiset (Task α)} {held : Multiset Reservation} (fired : v.Fired k) :
    (v.defer tracker children live held).Fired k := by
  obtain ⟨other, found, nonpositive⟩ := fired
  refine ⟨other, ?_, nonpositive⟩
  rw [View.defer, List.getElem?_append_left (List.getElem?_eq_some_iff.mp found).1]
  exact found

/-- The events a tracker issues carry its name, and it has then counted down to zero. -/
theorem firing_tracker {k j : TrackerId} {tracker : JoinTracker} {event : ExecEvent}
    (issued : event ∈ tracker.firing j) (named : event.tracker = some k) :
    k = j ∧ tracker.pendingChildren - 1 = 0 := by
  unfold JoinTracker.firing at issued
  split at issued
  · rename_i last
    refine ⟨?_, last⟩
    rcases List.mem_append.mp issued with isUnpin | isRelease
    · obtain ⟨request, -, rfl⟩ := List.mem_map.mp isUnpin
      cases named
      rfl
    · split at isRelease
      · rw [List.mem_singleton.mp isRelease] at named
        cases named
        rfl
      · cases isRelease
  · cases issued

theorem Effect.actsWhenFired (effect : Effect stages kv v kv' v') (inv : v.ActsWhenFired) :
    v'.ActsWhenFired := by
  intro event issued k named
  have before : event ∈ v.log ∨ event ∈ v.due → v.Fired k := fun issued => inv event issued k named
  cases effect with
  | silent | emit => exact before issued
  | start ratios task stage member found reserves =>
    rcases issued with logged | due
    · rcases List.mem_append.mp logged with old | new
      · exact before (Or.inl old)
      · rw [List.mem_singleton.mp new] at named
        cases named
    · exact before (Or.inr due)
  | raise completes raised =>
    rcases issued with logged | due
    · exact before (Or.inl logged)
    · rcases Multiset.mem_cons.mp due with rfl | old
      · cases named
      · exact before (Or.inr old)
  | drop completes ownPin dropped =>
    rcases issued with logged | due
    · exact before (Or.inl logged)
    · rcases Multiset.mem_add.mp due with isUnpin | due
      · obtain ⟨request, -, rfl⟩ := List.mem_map.mp (Multiset.mem_coe.mp isUnpin)
        cases named
      · rcases Multiset.mem_cons.mp due with rfl | old
        · cases named
        · exact before (Or.inr old)
  | advance completes goes nonempty fresh =>
    rcases issued with logged | due
    · rcases List.mem_append.mp logged with old | new
      · exact before (Or.inl old)
      · obtain ⟨child, -, rfl⟩ := List.mem_map.mp new
        cases named
    · rcases Multiset.mem_cons.mp due with rfl | old
      · cases named
      · exact before (Or.inr old)
  | defer completes request goes nonempty fresh =>
    rcases issued with logged | due
    · rcases List.mem_append.mp logged with old | new
      · exact fired_defer (before (Or.inl old))
      · obtain ⟨child, -, rfl⟩ := List.mem_map.mp new
        cases named
    · exact fired_defer (before (Or.inr due))
  | childFinished j signalled told found =>
    rcases issued with logged | due
    · exact fired_signal found (before (Or.inl logged))
    · rcases Multiset.mem_add.mp due with new | old
      · obtain ⟨rfl, last⟩ := firing_tracker (Multiset.mem_coe.mp new) named
        refine ⟨signalled.afterChild,
          List.getElem?_set_self (List.getElem?_eq_some_iff.mp found).1, ?_⟩
        simp only [JoinTracker.afterChild]
        omega
      · exact fired_signal found (before (Or.inr old))
  | unpin request tracker isDue | release reservation tracker isDue releases =>
    apply before
    rw [isDue, Multiset.mem_cons]
    rcases issued with logged | due
    · rcases List.mem_append.mp logged with old | new
      · exact Or.inl old
      · exact Or.inr (Or.inl (List.mem_singleton.mp new))
    · exact Or.inr (Or.inr due)

end Effect

/-! ## Descendants carry the tracker -/

/-- Task ids in the history are from below the counter, a task that has been replaced is not
live, and a live task derived from the parent of a tracker carries the tracker. -/
structure View.Lineage (v : View α) : Prop where
  spawned_lt : ∀ parent child, Spawned v.log parent child →
    parent < v.nextTaskId ∧ child < v.nextTaskId
  spawned_dead : ∀ parent child, Spawned v.log parent child →
    ∀ task ∈ v.live, task.taskId ≠ parent
  parent_lt : ∀ tracker ∈ v.trackers, tracker.parentTask < v.nextTaskId
  parent_dead : ∀ tracker ∈ v.trackers, ∀ task ∈ v.live, task.taskId ≠ tracker.parentTask
  carried : ∀ (k : TrackerId) (tracker : JoinTracker), v.trackers[k]? = some tracker →
    ∀ task ∈ v.live, Derived v.log tracker.parentTask task.taskId → k ∈ task.trackers

theorem spawned_append {log : List ExecEvent} {events : List ExecEvent}
    (noSpawn : ∀ parent child, .spawn parent child ∉ events) :
    Spawned (log ++ events) = Spawned log := by
  funext parent child
  simp only [Spawned, List.mem_append, eq_iff_iff]
  exact ⟨fun member => member.resolve_right (noSpawn parent child), Or.inl⟩

namespace View.Lineage

variable {v : View α}

/-- Live tasks may go and trackers may count down; the parents stay as they are. -/
theorem shrink (lineage : v.Lineage) (v' : View α) (liveLe : ∀ task ∈ v'.live, task ∈ v.live)
    (spawnedEq : Spawned v'.log = Spawned v.log) (nextEq : v'.nextTaskId = v.nextTaskId)
    (parents : ∀ (k : TrackerId) (tracker : JoinTracker), v'.trackers[k]? = some tracker →
      ∃ old, v.trackers[k]? = some old ∧ old.parentTask = tracker.parentTask) :
    v'.Lineage := by
  have parentOf : ∀ tracker ∈ v'.trackers,
      ∃ old ∈ v.trackers, old.parentTask = tracker.parentTask := by
    intro tracker member
    obtain ⟨k, found⟩ := List.mem_iff_getElem?.mp member
    obtain ⟨old, atIndex, same⟩ := parents k tracker found
    exact ⟨old, List.mem_of_getElem? atIndex, same⟩
  refine ⟨?_, ?_, ?_, ?_, ?_⟩
  · rw [spawnedEq, nextEq]
    exact lineage.spawned_lt
  · rw [spawnedEq]
    intro parent child spawned task member
    exact lineage.spawned_dead parent child spawned task (liveLe task member)
  · intro tracker member
    obtain ⟨old, isOld, same⟩ := parentOf tracker member
    rw [nextEq, ← same]
    exact lineage.parent_lt old isOld
  · intro tracker member task isLive
    obtain ⟨old, isOld, same⟩ := parentOf tracker member
    rw [← same]
    exact lineage.parent_dead old isOld task (liveLe task isLive)
  · intro k tracker found task isLive derived
    obtain ⟨old, atIndex, same⟩ := parents k tracker found
    rw [Derived, spawnedEq, ← same] at derived
    exact lineage.carried k old atIndex task (liveLe task isLive) derived

/-- `task` is replaced by fresh children with the tracker list `trackers`. -/
theorem spawn (lineage : v.Lineage) (sound : v.Sound) {task : Task α}
    {live : Multiset (Task α)} (leaves : v.live = task ::ₘ live) {trackers : List TrackerId}
    {positions : List (Position α)} {children : List (Task α)}
    (fresh : Children v.nextTaskId trackers positions children) (v' : View α)
    (liveEq : v'.live = children + live)
    (logEq : v'.log = v.log ++ children.map fun child => .spawn task.taskId child.taskId)
    (nextEq : v'.nextTaskId = v.nextTaskId + children.length)
    (inherits : ∀ k ∈ task.trackers, k ∈ trackers)
    (parents : ∀ (k : TrackerId) (tracker : JoinTracker), v'.trackers[k]? = some tracker →
      v.trackers[k]? = some tracker ∨ (tracker.parentTask = task.taskId ∧ k ∈ trackers)) :
    v'.Lineage := by
  have isLive : task ∈ v.live := by
    rw [leaves]
    exact Multiset.mem_cons_self task live
  have taskLt := sound.ids_lt task isLive
  have old : ∀ t ∈ live, t ∈ v.live := by
    intro t member
    rw [leaves]
    exact Multiset.mem_cons_of_mem member
  have cases : ∀ t ∈ v'.live, t ∈ children ∨ t ∈ live := by
    intro t member
    rw [liveEq, Multiset.mem_add, Multiset.mem_coe] at member
    exact member
  have later : ∀ {id}, id < v.nextTaskId → id < v'.nextTaskId := by
    intro id below
    rw [nextEq]
    exact Nat.lt_add_right _ below
  -- the children have new ids, so an id that has died stays dead
  have dead : ∀ {id}, id < v.nextTaskId → (∀ t ∈ live, t.taskId ≠ id) →
      ∀ t ∈ v'.live, t.taskId ≠ id := by
    intro id below unused t member
    rcases cases t member with isChild | isOld
    · exact (Nat.lt_of_lt_of_le below (fresh.id_range isChild).1).ne'
    · exact unused t isOld
  have notTask : ∀ t ∈ v'.live, t.taskId ≠ task.taskId := by
    have nodup := sound.ids_nodup
    rw [leaves, Multiset.map_cons, Multiset.nodup_cons] at nodup
    refine dead taskLt fun t isOld same => nodup.1 ?_
    rw [← same]
    exact Multiset.mem_map_of_mem _ isOld
  -- the new edges lead from `task` to nodes that no old edge touches
  have edges : ∀ a b, Spawned v'.log a b →
      Spawned v.log a b ∨ (a = task.taskId ∧ v.nextTaskId ≤ b ∧ b < v'.nextTaskId) := by
    intro a b spawned
    rw [Spawned, logEq, List.mem_append] at spawned
    rcases spawned with before | new
    · exact Or.inl before
    · obtain ⟨child, isChild, same⟩ := List.mem_map.mp new
      cases same
      rw [nextEq]
      exact Or.inr ⟨rfl, fresh.id_range isChild⟩
  have noEdge : ∀ a b, v.nextTaskId ≤ a → ¬ Spawned v.log a b := by
    intro a b isFresh spawned
    exact absurd (lineage.spawned_lt a b spawned).1 (Nat.not_lt.mpr isFresh)
  have descends : ∀ {a b}, Derived v'.log a b → Derived v.log a b ∨
      (v.nextTaskId ≤ b ∧ (a = task.taskId ∨ Derived v.log a task.taskId)) :=
    fun derived => transGen_of_leaves (fun a b edge => (edges a b edge).imp_right
      (And.imp_right And.left)) noEdge (Nat.not_le.mpr taskLt) derived
  have noDescendant : ∀ b, ¬ Derived v.log task.taskId b := by
    intro b
    apply not_transGen_of_no_edge
    intro c spawned
    exact lineage.spawned_dead _ c spawned task isLive rfl
  have parentCases : ∀ tracker ∈ v'.trackers,
      tracker ∈ v.trackers ∨ tracker.parentTask = task.taskId := by
    intro tracker member
    obtain ⟨k, found⟩ := List.mem_iff_getElem?.mp member
    rcases parents k tracker found with atIndex | ⟨own, -⟩
    · exact Or.inl (List.mem_of_getElem? atIndex)
    · exact Or.inr own
  refine ⟨?_, ?_, ?_, ?_, ?_⟩
  · intro parent child spawned
    rcases edges parent child spawned with before | ⟨rfl, -, below⟩
    · exact (lineage.spawned_lt _ _ before).imp later later
    · exact ⟨later taskLt, below⟩
  · intro parent child spawned
    rcases edges parent child spawned with before | ⟨rfl, -⟩
    · exact dead (lineage.spawned_lt _ _ before).1 fun t isOld =>
        lineage.spawned_dead parent child before t (old t isOld)
    · exact notTask
  · intro tracker member
    rcases parentCases tracker member with isOld | own
    · exact later (lineage.parent_lt tracker isOld)
    · rw [own]
      exact later taskLt
  · intro tracker member
    rcases parentCases tracker member with isOld | own
    · exact dead (lineage.parent_lt tracker isOld) fun t wasLive =>
        lineage.parent_dead tracker isOld t (old t wasLive)
    · rw [own]
      exact notTask
  · intro k tracker found t member derived
    rcases cases t member with isChild | wasLive
    · rw [fresh.trackers t isChild]
      have isFresh := (fresh.id_range isChild).1
      rcases parents k tracker found with atIndex | ⟨own, carries⟩
      · apply inherits
        rcases descends derived with before | ⟨-, same | before⟩
        · exfalso
          obtain ⟨c, -, edge⟩ := Relation.TransGen.tail'_iff.mp before
          exact absurd (lineage.spawned_lt _ _ edge).2 (Nat.not_lt.mpr isFresh)
        · exact absurd same.symm
            (lineage.parent_dead tracker (List.mem_of_getElem? atIndex) task isLive)
        · exact lineage.carried k tracker atIndex task isLive before
      · exact carries
    · have wasBelow := sound.ids_lt t (old t wasLive)
      rcases descends derived with before | ⟨isFresh, -⟩
      · rcases parents k tracker found with atIndex | ⟨own, -⟩
        · exact lineage.carried k tracker atIndex t (old t wasLive) before
        · rw [own] at before
          exact absurd before (noDescendant _)
      · exact absurd wasBelow (Nat.not_lt.mpr isFresh)

end View.Lineage

theorem Effect.lineage {stages : List (Stage α)} {kv kv' : KVMemoryManager} {v v' : View α}
    (effect : Effect stages kv v kv' v') (sound : v.Sound) (lineage : v.Lineage) : v'.Lineage := by
  have sameTrackers : ∀ (k : TrackerId) (tracker : JoinTracker),
      v.trackers[k]? = some tracker →
        ∃ old, v.trackers[k]? = some old ∧ old.parentTask = tracker.parentTask :=
    fun k tracker found => ⟨tracker, found, rfl⟩
  have leaveSubset : ∀ {task : Task α} {live : Multiset (Task α)}, v.live = task ::ₘ live →
      ∀ t ∈ live, t ∈ v.live := by
    intro task live leaves t member
    rw [leaves]
    exact Multiset.mem_cons_of_mem member
  cases effect with
  | silent => exact lineage
  | start | unpin | release =>
    exact lineage.shrink _ (fun _ member => member) (spawned_append (by simp)) rfl sameTrackers
  | raise completes raised | drop completes ownPin dropped =>
    exact lineage.shrink _ (leaveSubset completes.leaves) rfl rfl sameTrackers
  | advance completes goes nonempty fresh =>
    exact lineage.spawn sound completes.leaves fresh _ rfl rfl rfl (fun _ own => own)
      (fun _ _ found => Or.inl found)
  | defer completes request goes nonempty fresh =>
    refine lineage.spawn sound completes.leaves fresh _ rfl rfl rfl
      (fun _ own => List.mem_append_left _ own) ?_
    intro k tracker found
    rcases getElem?_snoc_cases found with old | ⟨rfl, rfl⟩
    · exact Or.inl old
    · exact Or.inr ⟨rfl, List.mem_append_right _ (List.mem_singleton.mpr rfl)⟩
  | emit task leaves final => exact lineage.shrink _ (leaveSubset leaves) rfl rfl sameTrackers
  | childFinished j signalled told foundSignalled =>
    refine lineage.shrink _ (fun _ member => member) rfl rfl ?_
    intro k tracker found
    rcases getElem?_set_cases found with ⟨rfl, rfl⟩ | ⟨-, old⟩
    · exact ⟨signalled, foundSignalled, rfl⟩
    · exact ⟨tracker, old, rfl⟩

/-! ## Parents are held as long as tracked tasks do not fan out -/

structure View.CountsDown (v : View α) : Prop where
  lineage : v.Lineage
  fired : v.ActsWhenFired
  counted : v.LoadLePending

theorem View.CountsDown.parentsHeld {v : View α} (counts : v.CountsDown) : v.ParentsHeld := by
  intro k tracker found event logged named task isLive derived
  obtain ⟨other, atIndex, nonpositive⟩ := counts.fired event (Or.inl logged) k named
  rw [found] at atIndex
  cases atIndex
  have bounded := counts.counted k tracker found
  have noLoad : v.load k = 0 := by omega
  exact View.not_carried_of_load_zero noLoad isLive
    (counts.lineage.carried k tracker found task isLive derived)

theorem View.initial_countsDown (firstTaskId : TaskId) (roots : List (Task α)) :
    (View.initial firstTaskId roots).CountsDown where
  lineage := by
    refine ⟨?_, ?_, ?_, ?_, ?_⟩
    · intro parent child spawned
      cases spawned
    · intro parent child spawned
      cases spawned
    · intro tracker member
      cases member
    · intro tracker member
      cases member
    · intro k tracker found
      simp [View.initial] at found
  fired := by
    intro event issued
    rcases issued with logged | due
    · cases logged
    · cases Multiset.notMem_zero _ due
  counted := by
    intro k tracker found
    simp [View.initial] at found

/-- A tracker gives its parent up only after the whole subtree of the parent is done, in every
run in which no task that carries a tracker has more than one successor. -/
theorem parents_held_of_narrow (stages : List (Stage α)) (kv : KVMemoryManager)
    (registered : ∀ stage ∈ stages, kv.Registered stage.stageId) (firstTaskId : TaskId)
    (ctxs : List (SemContext α)) (choices : Nat → Choice) (n : Nat)
    (narrow : ∀ i < n, View.Narrow stages
      ((run stages choices ⟨kv, enter stages firstTaskId ctxs⟩ i).exec.view stages)) :
    View.ParentsHeld
      ((run stages choices ⟨kv, enter stages firstTaskId ctxs⟩ n).exec.view stages) := by
  apply View.CountsDown.parentsHeld
  refine run_invariant (enter_valid registered firstTaskId ctxs) (fun _ v => v.CountsDown)
    (View.Narrow stages) ?_ ?_ choices n narrow
  · intro kv v kv' v' sound meets counts effect
    exact ⟨effect.lineage sound counts.lineage, effect.actsWhenFired counts.fired,
      effect.loadLePending sound meets counts.counted⟩
  · obtain ⟨-, roots, -, viewEq⟩ := enter_spec registered firstTaskId ctxs
    simp only [viewEq]
    exact View.initial_countsDown firstTaskId roots

/-- A pinned tuple is joined with two rows, and each result with one row of a second table. -/
def wideFanout : List (Stage Unit) :=
  [{ stageId := 1
     operators := [pinOp Unit "parent"]
     fanoutOp := some (productOp Unit 2)
     bytesPerToken := 1 },
   { stageId := 2
     operators := [passOp Unit]
     fanoutOp := some (productOp Unit 1)
     priorityOffset := 1
     bytesPerToken := 1 },
   { stageId := 3, operators := [passOp Unit], priorityOffset := 2, bytesPerToken := 1 }]

def wideFanoutRun (n : Nat) : ExecState Unit :=
  (run wideFanout (fun _ => oldestFirst)
    ⟨.threeStages, enter wideFanout 0 [⟨(), none⟩, ⟨(), none⟩]⟩ n).exec

theorem wideFanout_thin {i : Nat} (later : i ≠ 0) {stage : Stage Unit}
    (found : wideFanout[i]? = some stage) (ctx : SemContext Unit) :
    (stage.fanout ctx).length ≤ 1 := by
  match i, later, found with
  | 1, _, found => cases found; exact Nat.le_refl 1
  | 2, _, found => cases found; exact Nat.le_refl 1

/-- After 102 steps over two tuples the first parent is given up, and the second one waits for
the last of its four descendants. -/
theorem parents_held_wideFanout :
    (∀ stage ∈ wideFanout, KVMemoryManager.threeStages.Registered stage.stageId) ∧
      (wideFanoutRun 102).trackers.map JoinTracker.pendingChildren = [0, 1] ∧
      .unpin "parent" (some 0) ∈ (wideFanoutRun 102).log ∧
      (wideFanoutRun 102).active.map Task.taskId = [9] ∧
      View.ParentsHeld ((wideFanoutRun 102).view wideFanout) := by
  have later : ∀ i < 102, ∀ task ∈ ((wideFanoutRun i).view wideFanout).live,
      task.trackers ≠ [] → task.stageIndex ≠ 0 := by decide +kernel
  refine ⟨by decide +kernel, by decide +kernel, by decide +kernel, by decide +kernel, ?_⟩
  apply parents_held_of_narrow wideFanout .threeStages (by decide +kernel)
  intro i before
  apply narrow_of_fanout_le_one
  intro task live tracked stage found
  exact wideFanout_thin (later i before task live tracked) found

/-- A pinned tuple is joined with one row, and the result with two rows of a second table. -/
def nestedFanout : List (Stage Unit) :=
  [{ stageId := 1
     operators := [pinOp Unit "parent"]
     fanoutOp := some (productOp Unit 1)
     bytesPerToken := 1 },
   { stageId := 2
     operators := [passOp Unit]
     fanoutOp := some (productOp Unit 2)
     priorityOffset := 1
     bytesPerToken := 1 },
   { stageId := 3, operators := [passOp Unit], priorityOffset := 2, bytesPerToken := 1 }]

def nestedFanoutRun (n : Nat) : ExecState Unit :=
  (run nestedFanout (fun _ => oldestFirst)
    ⟨.threeStages, enter nestedFanout 0 [⟨(), none⟩]⟩ n).exec

/-- After 36 steps the first grandchild is out, the parent is unpinned and its budget is
released, while the second grandchild is still running in the third stage. -/
theorem nestedFanout_gives_parent_up_early :
    ¬ View.ParentsHeld ((nestedFanoutRun 36).view nestedFanout) := by
  have tracker : (nestedFanoutRun 36).trackers[0]? = some ⟨0, none, 0, 1, 1⟩ := by
    decide +kernel
  have unpinned : .unpin "parent" (some 0) ∈ (nestedFanoutRun 36).log := by decide +kernel
  have running : 3 ∈ (nestedFanoutRun 36).active.map Task.taskId := by decide +kernel
  have child : .spawn 0 1 ∈ (nestedFanoutRun 36).log := by decide +kernel
  have grandchild : .spawn 1 3 ∈ (nestedFanoutRun 36).log := by decide +kernel
  obtain ⟨task, isActive, taskId⟩ := List.mem_map.mp running
  intro held
  apply held 0 _ tracker _ unpinned rfl task
  · simp only [ExecState.view, Multiset.mem_add, Multiset.mem_coe]
    exact Or.inl (Or.inr isActive)
  · rw [taskId]
    exact (Relation.TransGen.single child).tail grandchild

end Kalypso.Query
