import Kalypso.Lib.Update
import Kalypso.Query.View

/-!
# The event loop refines its abstract view

`ExecState.view` forgets queues, control points and statistics.  Under the layout invariant
of the concrete state every branch of the event loop is one `Effect` on the view, and the
layout is kept.
-/

set_option autoImplicit false

namespace Kalypso.Query

open Kalypso.Lib
open ExecState

variable {α : Type}

/-! ## The view of a state -/

@[simp] def scriptTasks : List (Action α) → List (Task α)
  | [] => []
  | .enqueue task :: script => task :: scriptTasks script
  | .deliver task :: script => task :: scriptTasks script
  | _ :: script => scriptTasks script

@[simp] def scriptEvents : List (Action α) → List ExecEvent
  | [] => []
  | .release reservation tracker :: script =>
      .release reservation tracker :: scriptEvents script
  | .unpin request tracker :: script => .unpin request tracker :: scriptEvents script
  | _ :: script => scriptEvents script

@[simp] def scriptTrackers : List (Action α) → List TrackerId
  | [] => []
  | .childFinished k :: script => k :: scriptTrackers script
  | _ :: script => scriptTrackers script

@[simp] def scriptRaises : List (Action α) → Bool
  | [] => false
  | .raise :: _ => true
  | _ :: script => scriptRaises script

def Control.script : Control α → List (Action α)
  | .completing _ script => script
  | _ => []

def Control.failing : Control α → Bool
  | .raised _ => true
  | .completing _ script => scriptRaises script
  | _ => false

@[simp] theorem Control.script_raised (error : ExecError) :
    (Control.raised error : Control α).script = [] := rfl

@[simp] theorem Control.failing_raised (error : ExecError) :
    (Control.raised error : Control α).failing = true := rfl

@[simp] theorem Control.script_completing (done : List TaskId) (script : List (Action α)) :
    (Control.completing done script).script = script := rfl

@[simp] theorem Control.failing_completing (done : List TaskId) (script : List (Action α)) :
    (Control.completing done script).failing = scriptRaises script := rfl

def waitingTasks (stages : List (Stage α)) (tasks : List (StageTasks α)) : Multiset (Task α) :=
  alignedSum (fun _ tasks => (tasks.waitingTasks : Multiset (Task α))) stages tasks

def reservationsOn (stageId : StageId) (running : Dict TaskId Int) : Multiset Reservation :=
  (running.entries.map fun entry => ({⟨entry.1, stageId, entry.2⟩} : Multiset Reservation)).sum

def heldBy (stages : List (Stage α)) (tasks : List (StageTasks α)) : Multiset Reservation :=
  alignedSum (fun stage tasks => reservationsOn stage.stageId tasks.runningTasks) stages tasks

def ExecState.view (stages : List (Stage α)) (s : ExecState α) : View α where
  live := waitingTasks stages s.tasks + s.active + scriptTasks s.control.script
  held := heldBy stages s.tasks
  due := scriptEvents s.control.script
  finishing := scriptTrackers s.control.script
  trackers := s.trackers
  out := s.out
  log := s.log
  nextTaskId := s.nextTaskId
  failing := s.control.failing

/-! ## The layout of a state -/

/-- An action that can be executed, with `rest` after it: a queue exists for an enqueued
task, a released stage is one of the segment, and nothing follows a `raise`. -/
def Action.Ok (stages : List (Stage α)) (rest : List (Action α)) : Action α → Prop
  | .enqueue task => task.stageIndex < stages.length
  | .release reservation _ => ∃ stage ∈ stages, stage.stageId = reservation.stageId
  | .raise => rest = []
  | _ => True

def ScriptOk (stages : List (Stage α)) : List (Action α) → Prop
  | [] => True
  | action :: rest => action.Ok stages rest ∧ ScriptOk stages rest

structure Layout (stages : List (Stage α)) (kv : KVMemoryManager) (s : ExecState α) :
    Prop where
  aligned : s.tasks.length = stages.length
  registered : ∀ stage ∈ stages, kv.Registered stage.stageId
  waiting : ∀ (i : Nat) (tasks : StageTasks α), s.tasks[i]? = some tasks →
    ∀ task ∈ tasks.waitingTasks, task.stageIndex = i
  running : ∀ (i : Nat) (tasks : StageTasks α), s.tasks[i]? = some tasks →
    tasks.runningTasks.keys =
      (s.active.filter fun task => task.stageIndex = i).map Task.taskId
  active : ∀ task ∈ s.active, task.stageIndex < stages.length
  trackers : ∀ tracker ∈ s.trackers, ∃ stage ∈ stages, stage.stageId = tracker.stageId
  script : ScriptOk stages s.control.script

def Refines (stages : List (Stage α)) (m m' : Machine α) : Prop :=
  Effect stages m.kv (m.exec.view stages) m'.kv (m'.exec.view stages) ∧
    Layout stages m'.kv m'.exec

/-! ## Scripts -/

section Script

variable (first second : List (Action α)) (tasks : List (Task α)) (trackers : List TrackerId)

@[simp] theorem scriptTasks_append :
    scriptTasks (first ++ second) = scriptTasks first ++ scriptTasks second := by
  induction first with
  | nil => rfl
  | cons action first ih => cases action <;> simp [ih]

@[simp] theorem scriptEvents_append :
    scriptEvents (first ++ second) = scriptEvents first ++ scriptEvents second := by
  induction first with
  | nil => rfl
  | cons action first ih => cases action <;> simp [ih]

@[simp] theorem scriptTrackers_append :
    scriptTrackers (first ++ second) = scriptTrackers first ++ scriptTrackers second := by
  induction first with
  | nil => rfl
  | cons action first ih => cases action <;> simp [ih]

@[simp] theorem scriptRaises_append :
    scriptRaises (first ++ second) = (scriptRaises first || scriptRaises second) := by
  induction first with
  | nil => rfl
  | cons action first ih => cases action <;> simp [ih]

theorem script_deliver :
    scriptTasks (tasks.map .deliver) = tasks ∧
      scriptEvents (tasks.map (.deliver : Task α → Action α)) = [] ∧
      scriptTrackers (tasks.map (.deliver : Task α → Action α)) = [] ∧
      scriptRaises (tasks.map (.deliver : Task α → Action α)) = false := by
  induction tasks with
  | nil => simp
  | cons task tasks ih => simpa using ih

theorem script_finalizeTask :
    scriptTasks (finalizeTask trackers : List (Action α)) = [] ∧
      scriptEvents (finalizeTask trackers : List (Action α)) = [] ∧
      scriptTrackers (finalizeTask trackers : List (Action α)) = trackers ∧
      scriptRaises (finalizeTask trackers : List (Action α)) = false := by
  induction trackers with
  | nil => simp [finalizeTask]
  | cons k trackers ih => simpa [finalizeTask] using ih

end Script

theorem scriptOk_append (stages : List (Stage α)) (first second : List (Action α))
    (plain : ∀ action ∈ first, ∀ rest, action.Ok stages rest)
    (ok : ScriptOk stages second) : ScriptOk stages (first ++ second) := by
  induction first with
  | nil => exact ok
  | cons action first ih =>
    refine ⟨plain action (List.mem_cons_self ..) _, ih ?_⟩
    intro other member
    exact plain other (List.mem_cons_of_mem _ member)

/-! ## Queue updates -/

section Update

variable {stages : List (Stage α)} {tasks : List (StageTasks α)} {i : Nat} {stage : Stage α}
  {old : StageTasks α}

section

variable (found : stages[i]? = some stage) (present : tasks[i]? = some old)

include found present

theorem waitingTasks_set (new : StageTasks α) :
    waitingTasks stages (tasks.set i new) + old.waitingTasks =
      waitingTasks stages tasks + new.waitingTasks :=
  alignedSum_set _ stages tasks i stage old new found present

theorem heldBy_set (new : StageTasks α) :
    heldBy stages (tasks.set i new) + reservationsOn stage.stageId old.runningTasks =
      heldBy stages tasks + reservationsOn stage.stageId new.runningTasks :=
  alignedSum_set _ stages tasks i stage old new found present

theorem waitingTasks_set_same (running : Dict TaskId Int) :
    waitingTasks stages (tasks.set i { old with runningTasks := running }) =
      waitingTasks stages tasks :=
  add_right_cancel (waitingTasks_set found present _)

theorem waitingTasks_enqueue (task : Task α) :
    waitingTasks stages (tasks.set i (stage.enqueue old task)) =
      task ::ₘ waitingTasks stages tasks := by
  have moved := waitingTasks_set found present (stage.enqueue old task)
  have perm : ((stage.enqueue old task).waitingTasks : Multiset (Task α)) =
      task ::ₘ (old.waitingTasks : Multiset (Task α)) :=
    Multiset.coe_eq_coe.mpr (insertTask_perm stage task old.waitingTasks)
  rw [perm, ← Multiset.singleton_add, ← add_assoc] at moved
  rw [add_right_cancel moved, add_comm, Multiset.singleton_add]

theorem waitingTasks_pop {task : Task α} {rest : List (Task α)}
    (head : old.waitingTasks = task :: rest) (running : Dict TaskId Int) :
    task ::ₘ waitingTasks stages (tasks.set i ⟨rest, running⟩) = waitingTasks stages tasks := by
  have moved := waitingTasks_set found present ⟨rest, running⟩
  rw [head, ← Multiset.cons_coe, Multiset.add_cons, ← Multiset.cons_add] at moved
  exact add_right_cancel moved

theorem heldBy_set_same (queue : List (Task α)) :
    heldBy stages (tasks.set i { old with waitingTasks := queue }) = heldBy stages tasks :=
  add_right_cancel (heldBy_set found present _)

theorem heldBy_start {taskId : TaskId} (absent : old.runningTasks.get? taskId = none) (budget : Int)
    (queue : List (Task α)) :
    heldBy stages (tasks.set i ⟨queue, old.runningTasks.set taskId budget⟩) =
      ⟨taskId, stage.stageId, budget⟩ ::ₘ heldBy stages tasks := by
  have moved := heldBy_set found present ⟨queue, old.runningTasks.set taskId budget⟩
  simp only [reservationsOn] at moved
  rw [Dict.sum_set_new _ _ budget absent, ← add_assoc, add_right_comm] at moved
  rw [← Multiset.singleton_add, add_comm]
  exact add_right_cancel moved

theorem heldBy_detach {taskId : TaskId} {budget : Int}
    (running : old.runningTasks.get? taskId = some budget) (queue : List (Task α)) :
    ⟨taskId, stage.stageId, budget⟩ ::ₘ
        heldBy stages (tasks.set i ⟨queue, old.runningTasks.erase taskId⟩) =
      heldBy stages tasks := by
  have moved := heldBy_set found present ⟨queue, old.runningTasks.erase taskId⟩
  simp only [reservationsOn] at moved
  rw [← Dict.sum_erase_present _ _ running, ← add_assoc, add_right_comm] at moved
  rw [← Multiset.singleton_add, add_comm]
  exact add_right_cancel moved

end

end Update

theorem getElem?_set_cases {β : Type} {l : List β} {i j : Nat} {a b : β}
    (found : (l.set i a)[j]? = some b) : (j = i ∧ b = a) ∨ (j ≠ i ∧ l[j]? = some b) := by
  by_cases same : j = i
  · subst same
    left
    rw [List.getElem?_set_self'] at found
    obtain ⟨-, -, rfl⟩ := Option.map_eq_some_iff.mp found
    exact ⟨rfl, rfl⟩
  · right
    rw [List.getElem?_set_ne (Ne.symm same)] at found
    exact ⟨same, found⟩

/-! ## Steps that only move the control point -/

section Layout

variable {stages : List (Stage α)} {kv kv' : KVMemoryManager} {s : ExecState α}

/-- The layout reads the queues, the active futures, the trackers and the script only. -/
theorem Layout.transport (layout : Layout stages kv s) (grows : kv.Extends kv') {s' : ExecState α}
    (tasks : s'.tasks = s.tasks) (active : s'.active = s.active)
    (trackers : ∀ tracker ∈ s'.trackers, ∃ stage ∈ stages, stage.stageId = tracker.stageId)
    (ok : ScriptOk stages s'.control.script) : Layout stages kv' s' where
  aligned := tasks ▸ layout.aligned
  registered := fun stage member => grows _ (layout.registered stage member)
  waiting := tasks ▸ layout.waiting
  running := tasks ▸ active ▸ layout.running
  active := active ▸ layout.active
  trackers := trackers
  script := ok

theorem Layout.withControl (layout : Layout stages kv s) (grows : kv.Extends kv')
    (control : Control α) (ok : ScriptOk stages control.script) :
    Layout stages kv' { s with control := control } :=
  layout.transport grows rfl rfl layout.trackers ok

theorem Layout.stage_at (layout : Layout stages kv s) {i : Nat} (bound : i < stages.length) :
    ∃ stage tasks, stages[i]? = some stage ∧ s.tasks[i]? = some tasks :=
  ⟨_, _, List.getElem?_eq_getElem bound,
    List.getElem?_eq_getElem (Nat.lt_of_lt_of_eq bound layout.aligned.symm)⟩

theorem extends_refl (kv : KVMemoryManager) : kv.Extends kv := fun _ registered => registered

theorem view_withControl (idle : s.control.script = []) (calm : s.control.failing = false)
    (control : Control α) (idle' : control.script = []) (calm' : control.failing = false) :
    view stages { s with control := control } = s.view stages := by
  simp [view, idle, idle', calm, calm']

theorem silent_refines {m : Machine α} (layout : Layout stages m.kv m.exec)
    (idle : m.exec.control.script = []) (calm : m.exec.control.failing = false)
    (control : Control α) (idle' : control.script = []) (calm' : control.failing = false) :
    Refines stages m { m with exec := { m.exec with control := control } } := by
  refine ⟨?_, layout.withControl (extends_refl _) control (by rw [idle']; trivial)⟩
  rw [view_withControl idle calm control idle' calm']
  exact Effect.silent (fun _ => rfl) (fun _ => rfl)

theorem rebalance_used (choice : Choice) (kv : KVMemoryManager) (stageId : StageId) :
    (rebalance choice kv).used stageId = kv.used stageId := rfl

theorem rebalance_inflight (choice : Choice) (kv : KVMemoryManager) (stageId : StageId) :
    (rebalance choice kv).inflight stageId = kv.inflight stageId := rfl

theorem rebalance_extends (choice : Choice) (kv : KVMemoryManager) :
    kv.Extends (rebalance choice kv) := by
  intro stageId registered
  refine ⟨registered.1, registered.2.1, ?_⟩
  rw [Option.isSome_iff_ne_none, Ne, Dict.get?_eq_none_iff, not_not]
  have present := registered.2.2
  rw [Option.isSome_iff_ne_none, Ne, Dict.get?_eq_none_iff, not_not] at present
  rw [rebalance, Dict.keys_mapValues]
  exact present

end Layout

/-! ## Starting a task -/

section Launch

variable {stages : List (Stage α)} {m : Machine α} {idx : Nat} {stage : Stage α}
  {tasks : StageTasks α} {task : Task α} {rest : List (Task α)}

theorem mem_waitingTasks (found : stages[idx]? = some stage)
    (present : m.exec.tasks[idx]? = some tasks) (member : task ∈ tasks.waitingTasks) :
    task ∈ waitingTasks stages m.exec.tasks :=
  (mem_alignedSum _ _ _ _).mpr ⟨idx, stage, tasks, found, present, Multiset.mem_coe.mpr member⟩

theorem waiting_id_not_active (sound : (m.exec.view stages).Sound)
    (member : task ∈ waitingTasks stages m.exec.tasks) {other : Task α}
    (running : other ∈ m.exec.active) : other.taskId ≠ task.taskId := by
  have nodup := sound.ids_nodup
  simp only [view, Multiset.map_add, Multiset.nodup_add] at nodup
  obtain ⟨⟨-, -, disjoint⟩, -, -⟩ := nodup
  intro same
  apply Multiset.disjoint_left.mp disjoint (Multiset.mem_map_of_mem _ member)
  rw [← same]
  exact Multiset.mem_map_of_mem _ (Multiset.mem_coe.mpr running)

theorem mem_reservationsOn {stageId : StageId} {running : Dict TaskId Int}
    {reservation : Reservation} (member : reservation ∈ reservationsOn stageId running) :
    reservation.stageId = stageId ∧ reservation.task ∈ running.keys := by
  unfold reservationsOn at member
  unfold Dict.keys
  generalize running.entries = entries at member
  induction entries with
  | nil => cases Multiset.notMem_zero _ member
  | cons entry entries ih =>
    rw [List.map_cons, List.sum_cons, Multiset.mem_add, Multiset.mem_singleton] at member
    rcases member with rfl | later
    · exact ⟨rfl, List.mem_cons_self ..⟩
    · exact ⟨(ih later).1, List.mem_cons_of_mem _ (ih later).2⟩

/-- A reservation is held by a stage of the segment, for one of the running tasks. -/
theorem held_running {kv : KVMemoryManager} {s : ExecState α} (layout : Layout stages kv s)
    {reservation : Reservation} (member : reservation ∈ heldBy stages s.tasks) :
    (∃ stage ∈ stages, stage.stageId = reservation.stageId) ∧
      ∃ task ∈ s.active, task.taskId = reservation.task := by
  obtain ⟨i, stage, tasks, found, present, onStage⟩ := (mem_alignedSum _ _ _ _).mp member
  obtain ⟨sameStage, isKey⟩ := mem_reservationsOn onStage
  rw [layout.running i tasks present] at isKey
  obtain ⟨task, isActive, sameTask⟩ := List.mem_map.mp isKey
  exact ⟨⟨stage, List.mem_of_getElem? found, sameStage.symm⟩,
    task, List.mem_of_mem_filter isActive, sameTask⟩

theorem launch_refines (layout : Layout stages m.kv m.exec) (sound : (m.exec.view stages).Sound)
    (idle : m.exec.control.script = []) (calm : m.exec.control.failing = false)
    (found : stages[idx]? = some stage) (present : m.exec.tasks[idx]? = some tasks)
    (head : tasks.waitingTasks = task :: rest) (ratios : MapRatios) (kv' : KVMemoryManager)
    (reserves : m.kv.Reserves kv' stage.stageId (stage.estimateBudget ratios task))
    (grows : m.kv.Extends kv') (control : Control α) (idle' : control.script = [])
    (calm' : control.failing = false) :
    Refines stages m
      (launch idx stage (tasks.startRunning task (stage.estimateBudget ratios task)) task kv'
        (some ⟨task.taskId, stage.stageId, stage.estimateBudget ratios task⟩)
        { m.exec with control := control }) := by
  set budget := stage.estimateBudget ratios task
  have queued : task ∈ tasks.waitingTasks := by
    rw [head]
    exact List.mem_cons_self ..
  have isWaiting := mem_waitingTasks found present queued
  have index : task.stageIndex = idx := layout.waiting idx tasks present task queued
  have popped : (tasks.startRunning task budget).popTask =
      ⟨rest, tasks.runningTasks.set task.taskId budget⟩ := by
    simp [StageTasks.startRunning, StageTasks.popTask, head]
  have notRunning : task.taskId ∉ tasks.runningTasks.keys := by
    rw [layout.running idx tasks present]
    intro member
    obtain ⟨other, isActive, same⟩ := List.mem_map.mp member
    exact waiting_id_not_active sound isWaiting (List.mem_of_mem_filter isActive) same
  have absent := (Dict.get?_eq_none_iff _ _).mpr notRunning
  constructor
  · have viewEq : (launch idx stage (tasks.startRunning task budget)
        task kv' (some ⟨task.taskId, stage.stageId, budget⟩)
        { m.exec with control := control }).exec.view stages =
        { m.exec.view stages with
          held := ⟨task.taskId, stage.stageId, budget⟩ ::ₘ
            (m.exec.view stages).held
          log := (m.exec.view stages).log ++
            [.reserve ⟨task.taskId, stage.stageId, budget⟩] } := by
      have moved := waitingTasks_pop found present head
        (tasks.runningTasks.set task.taskId budget)
      ext1
      all_goals simp only [view, launch, recordInput, popped, idle, idle',
        calm, calm', scriptTasks, scriptEvents, scriptTrackers, Multiset.coe_nil, add_zero]
      · rw [← moved, ← Multiset.coe_add, ← Multiset.singleton_add]
        simp only [Multiset.coe_singleton]
        abel
      · exact heldBy_start found present absent _ rest
      · rfl
    rw [viewEq]
    refine Effect.start ratios task stage ?_ ?_ (by rw [index]; exact found) reserves
    · simp only [view, Multiset.mem_add]
      exact Or.inl (Or.inl isWaiting)
    · intro reservation held
      obtain ⟨-, other, isActive, sameTask⟩ := held_running layout held
      rw [← sameTask]
      exact waiting_id_not_active sound isWaiting isActive
  · have setLayout : ∀ (i : Nat) (other : StageTasks α),
        (m.exec.tasks.set idx
          ⟨rest, tasks.runningTasks.set task.taskId budget⟩)[i]? =
            some other →
        (∀ t ∈ other.waitingTasks, t.stageIndex = i) ∧
          other.runningTasks.keys =
            ((m.exec.active ++ [task]).filter fun t => t.stageIndex = i).map Task.taskId := by
      intro i other atIndex
      rcases getElem?_set_cases atIndex with ⟨rfl, rfl⟩ | ⟨different, old⟩
      · constructor
        · intro t member
          apply layout.waiting i tasks present
          rw [head]
          exact List.mem_cons_of_mem _ member
        · rw [Dict.keys_set_new _ _ notRunning, layout.running i tasks present]
          simp [index]
      · refine ⟨layout.waiting i other old, ?_⟩
        rw [layout.running i other old]
        simp [index, Ne.symm different]
    refine ⟨?_, ?_, ?_, ?_, ?_, layout.trackers, ?_⟩
    · simp [launch, layout.aligned]
    · exact fun stage member => grows _ (layout.registered stage member)
    · intro i other atIndex
      simp only [launch, popped] at atIndex
      exact (setLayout i other atIndex).1
    · intro i other atIndex
      simp only [launch, popped] at atIndex
      exact (setLayout i other atIndex).2
    · intro t member
      simp only [launch, List.mem_append, List.mem_singleton] at member
      rcases member with old | rfl
      · exact layout.active t old
      · rw [index]
        exact (List.getElem?_eq_some_iff.mp found).1
    · simp only [launch, recordInput, idle']
      trivial

theorem accept_spec (kv : KVMemoryManager) (tasks : StageTasks α) (ratios : MapRatios)
    (registered : kv.Registered stage.stageId) (unreserved : task.reservedBudget = 0) :
    stage.accept ratios tasks task kv = .refused ∨
      ∃ kv', stage.accept ratios tasks task kv =
          .started (tasks.startRunning task (stage.estimateBudget ratios task)) task kv' ∧
        kv.Reserves kv' stage.stageId (stage.estimateBudget ratios task) ∧
        kv.Extends kv' := by
  rcases kv.tryAllocateStage_spec stage.stageId (stage.estimateBudget ratios task) registered
    with refused | ⟨kv', granted, reserves, grows⟩
  · left
    simp [Stage.accept, unreserved, refused]
  · right
    exact ⟨kv', by simp [Stage.accept, unreserved, granted], reserves, grows⟩

theorem forceAccept_spec (kv : KVMemoryManager) (tasks : StageTasks α) (ratios : MapRatios)
    (registered : kv.Registered stage.stageId) (unreserved : task.reservedBudget = 0) :
    ∃ kv', stage.forceAccept ratios tasks task kv =
        .started (tasks.startRunning task (stage.estimateBudget ratios task)) task kv' ∧
      kv.Reserves kv' stage.stageId (stage.estimateBudget ratios task) ∧
      kv.Extends kv' := by
  obtain ⟨kv', granted, reserves, grows⟩ :=
    kv.forceAllocateStage_spec stage.stageId (stage.estimateBudget ratios task) registered
  exact ⟨kv', by simp [Stage.forceAccept, unreserved, granted], reserves, grows⟩

theorem newReservation_of_unreserved (ratios : MapRatios) (unreserved : task.reservedBudget = 0) :
    newReservation stage ratios task =
      some ⟨task.taskId, stage.stageId, stage.estimateBudget ratios task⟩ := by
  simp [newReservation, unreserved]

theorem waitingTasks_of_peekTask (peek : tasks.peekTask = some task) :
    ∃ rest, tasks.waitingTasks = task :: rest :=
  List.head?_eq_some_iff.mp peek

theorem unreserved_of_queued (sound : (m.exec.view stages).Sound)
    (found : stages[idx]? = some stage) (present : m.exec.tasks[idx]? = some tasks)
    (head : tasks.waitingTasks = task :: rest) : task.reservedBudget = 0 := by
  apply sound.unreserved
  simp only [view, Multiset.mem_add]
  left; left
  apply mem_waitingTasks found present
  rw [head]
  exact List.mem_cons_self ..

end Launch

/-! ## Completing a task -/

def View.withRunning (v : View α) (task : Task α) (reservation : Reservation) : View α :=
  { v with live := task ::ₘ v.live, held := reservation ::ₘ v.held }

theorem newTasks_children (s : ExecState α) (stageIndex : Nat) (trackers : List TrackerId)
    (ctxs : List (SemContext α)) :
    Children s.nextTaskId trackers (ctxs.map fun ctx => ⟨ctx, stageIndex, 0⟩)
      (s.newTasks stageIndex trackers ctxs) where
  ids := by
    apply List.ext_getElem
    · simp [newTasks]
    · intro i h₁ h₂
      simp [newTasks]
  positions := by
    apply List.ext_getElem
    · simp [newTasks]
    · intro i h₁ h₂
      simp [newTasks, Task.position]
  trackers := by
    intro child member
    obtain ⟨i, bound, rfl⟩ := List.mem_mapIdx.mp member
    rfl
  unreserved := by
    intro child member
    obtain ⟨i, bound, rfl⟩ := List.mem_mapIdx.mp member
    rfl

section Completion

variable {stages : List (Stage α)} {kv : KVMemoryManager} {s : ExecState α} {stage : Stage α}
  {task : Task α} {budget : Int} {ctx : SemContext α}

theorem successors_position (stage : Stage α) (task : Task α) :
    stage.successors task.position =
      match stage.runTask task with
      | .raised => none
      | .retry ctx opIndex _ => some [⟨ctx, task.stageIndex, opIndex⟩]
      | .dropped => some []
      | .finished ctx =>
        some ((stage.fanout ctx).map fun child => ⟨child, task.stageIndex + 1, 0⟩) := rfl

/-- The state from which `task` was taken out, with it put back in the view. -/
abbrev viewBefore (stages : List (Stage α)) (s : ExecState α) (task : Task α) (stage : Stage α)
    (budget : Int) : View α :=
  (s.view stages).withRunning task ⟨task.taskId, stage.stageId, budget⟩

abbrev viewAfter (stages : List (Stage α)) (done : List TaskId)
    (branch : ExecState α × List (Action α)) : View α :=
  view stages { branch.1 with control := .completing done branch.2 }

theorem completes_before (found : stages[task.stageIndex]? = some stage) :
    Completes stages (viewBefore stages s task stage budget) task stage budget
      (s.view stages).live (s.view stages).held :=
  ⟨found, rfl, rfl⟩

section

variable (found : stages[task.stageIndex]? = some stage) (idle : s.control.script = [])
  (calm : s.control.failing = false) (done : List TaskId)

include found idle calm done

theorem onDrop_effect (dropped : stage.successors task.position = some []) :
    Effect stages kv (viewBefore stages s task stage budget) kv
      (viewAfter stages done (onDrop s stage task budget)) := by
  convert Effect.drop (completes_before found) none dropped using 1
  simp [onDrop, script_finalizeTask, view, View.withRunning, idle, calm]

theorem onEmptyFanout_effect (dropped : stage.successors task.position = some []) :
    Effect stages kv (viewBefore stages s task stage budget) kv
      (viewAfter stages done (onEmptyFanout s stage task budget ctx)) := by
  convert Effect.drop (completes_before found) ctx.pinReqId dropped using 1
  cases pin : ctx.pinReqId with
  | none =>
    simp [onEmptyFanout, recordOutput, view, View.withRunning, idle, calm,
      pin, script_finalizeTask]
  | some request =>
    simp [onEmptyFanout, recordOutput, view, View.withRunning, idle, calm,
      pin, script_finalizeTask]
    rfl

theorem onPinnedFanout_effect (request : RequestId) (childCtxs : List (SemContext α))
    (nonempty : childCtxs ≠ [])
    (goes : stage.successors task.position =
      some (childCtxs.map fun child => ⟨child, task.stageIndex + 1, 0⟩)) :
    Effect stages kv (viewBefore stages s task stage budget) kv
      (viewAfter stages done (onPinnedFanout s stage task budget request childCtxs)) := by
  convert Effect.defer (completes_before found) request goes (by simpa using nonempty)
    (newTasks_children s (task.stageIndex + 1) (task.trackers ++ [s.trackers.length])
      childCtxs) using 1
  simp [onPinnedFanout, recordOutput, spawned, view,
    View.withRunning, View.spawn, View.defer, idle, calm, script_deliver, add_comm]

theorem onPlainFanout_effect (childCtxs : List (SemContext α)) (nonempty : childCtxs ≠ [])
    (goes : stage.successors task.position =
      some (childCtxs.map fun child => ⟨child, task.stageIndex + 1, 0⟩)) :
    Effect stages kv (viewBefore stages s task stage budget) kv
      (viewAfter stages done (onPlainFanout s stage task budget childCtxs)) := by
  convert Effect.advance (completes_before found) goes (by simpa using nonempty)
    (newTasks_children s (task.stageIndex + 1) task.trackers childCtxs) using 1
  simp [onPlainFanout, recordOutput, spawned, view,
    View.withRunning, View.spawn, View.advance, idle, calm, script_deliver, add_comm]

theorem onRetry_effect (opIndex : Nat)
    (goes : stage.successors task.position = some [⟨ctx, task.stageIndex, opIndex⟩]) :
    Effect stages kv (viewBefore stages s task stage budget) kv
      (viewAfter stages done (onRetry s stage task budget ctx opIndex false)) := by
  have fresh : Children s.nextTaskId task.trackers [⟨ctx, task.stageIndex, opIndex⟩]
      [{ ctx := ctx
         stageIndex := task.stageIndex
         trackers := task.trackers
         opIndex := opIndex
         retryPriority := some (-((stage.priorityOffset : Int) + opIndex))
         reservedBudget := 0
         taskId := s.nextTaskId }] := by
    refine ⟨rfl, rfl, ?_, ?_⟩
    all_goals
      intro child member
      rw [List.mem_singleton.mp member]
  convert Effect.advance (completes_before found) goes (List.cons_ne_nil _ _) fresh using 1
  simp [onRetry, spawned, view, View.withRunning, View.spawn, View.advance,
    idle, calm, add_comm]

theorem onResult_effect :
    Effect stages kv (viewBefore stages s task stage budget) kv
      (viewAfter stages done (onResult s stage task budget (stage.runTask task))) := by
  have goes := successors_position stage task
  generalize result : stage.runTask task = outcome at goes ⊢
  cases outcome with
  | raised =>
    convert Effect.raise (completes_before found) goes using 1
    simp [onResult, view, View.withRunning, idle]
  | retry ctx opIndex retainBudget =>
    have kept := (Stage.runOperators_retry result).1
    subst kept
    exact onRetry_effect found idle calm done opIndex goes
  | dropped => exact onDrop_effect found idle calm done goes
  | finished ctx =>
    cases fanoutOp : stage.fanoutOp with
    | none =>
      simp only [Stage.fanout, fanoutOp] at goes
      simp only [onResult, fanoutOp]
      exact onPlainFanout_effect found idle calm done [ctx] (List.cons_ne_nil _ _) goes
    | some op =>
      simp only [Stage.fanout, fanoutOp] at goes
      cases childCtxs : op.call ctx with
      | nil =>
        rw [childCtxs] at goes
        simp only [onResult, fanoutOp, childCtxs]
        exact onEmptyFanout_effect found idle calm done goes
      | cons child rest =>
        rw [childCtxs] at goes
        cases pin : ctx.pinReqId with
        | none =>
          simp only [onResult, fanoutOp, childCtxs, pin]
          exact onPlainFanout_effect found idle calm done _ (List.cons_ne_nil _ _) goes
        | some request =>
          simp only [onResult, fanoutOp, childCtxs, pin]
          exact onPinnedFanout_effect found idle calm done request _
            (List.cons_ne_nil _ _) goes

end

/-- A branch leaves queues and active futures alone, a new tracker is one of this stage, and
its script can be executed. -/
structure BranchOk (stages : List (Stage α)) (s : ExecState α) (stage : Stage α)
    (branch : ExecState α × List (Action α)) : Prop where
  tasks : branch.1.tasks = s.tasks
  active : branch.1.active = s.active
  trackers : ∀ tracker ∈ branch.1.trackers,
    tracker ∈ s.trackers ∨ tracker.stageId = stage.stageId
  script : ScriptOk stages branch.2

theorem deliver_ok (tasks : List (Task α)) :
    ∀ action ∈ tasks.map Action.deliver, ∀ rest, action.Ok stages rest := by
  intro action member rest
  obtain ⟨task, -, rfl⟩ := List.mem_map.mp member
  trivial

theorem finalizeTask_ok (trackers : List TrackerId) : ScriptOk stages (finalizeTask trackers) := by
  rw [← List.append_nil (finalizeTask trackers)]
  apply scriptOk_append
  · intro action member rest
    obtain ⟨k, -, rfl⟩ := List.mem_map.mp member
    trivial
  · trivial

theorem onResult_ok (member : stage ∈ stages) (bound : task.stageIndex < stages.length)
    (result : TaskResult α) : BranchOk stages s stage (onResult s stage task budget result) := by
  have ownStage : ∃ other ∈ stages, other.stageId = stage.stageId := ⟨stage, member, rfl⟩
  have plainFanout : ∀ childCtxs,
      BranchOk stages s stage (onPlainFanout s stage task budget childCtxs) := by
    intro childCtxs
    refine ⟨rfl, rfl, fun _ old => Or.inl old, ?_⟩
    exact scriptOk_append _ _ _ (deliver_ok _) ⟨ownStage, trivial, trivial⟩
  cases result with
  | raised => exact ⟨rfl, rfl, fun _ old => Or.inl old, ownStage, rfl, trivial⟩
  | retry ctx opIndex retainBudget =>
    refine ⟨rfl, rfl, fun _ old => Or.inl old, bound, ?_⟩
    cases retainBudget with
    | true => exact ⟨trivial, trivial⟩
    | false => exact ⟨ownStage, trivial, trivial⟩
  | dropped =>
    exact ⟨rfl, rfl, fun _ old => Or.inl old, ownStage, trivial, finalizeTask_ok _⟩
  | finished ctx =>
    cases fanoutOp : stage.fanoutOp with
    | none =>
      simp only [onResult, fanoutOp]
      exact plainFanout [ctx]
    | some op =>
      cases childCtxs : op.call ctx with
      | nil =>
        simp only [onResult, fanoutOp, childCtxs]
        refine ⟨rfl, rfl, fun _ old => Or.inl old, ?_⟩
        apply scriptOk_append
        · intro action isUnpin rest
          obtain ⟨request, -, rfl⟩ := List.mem_map.mp isUnpin
          trivial
        · exact ⟨ownStage, trivial, finalizeTask_ok _⟩
      | cons child rest =>
        cases pin : ctx.pinReqId with
        | none =>
          simp only [onResult, fanoutOp, childCtxs, pin]
          exact plainFanout (child :: rest)
        | some request =>
          simp only [onResult, fanoutOp, childCtxs, pin]
          refine ⟨rfl, rfl, ?_, scriptOk_append _ _ _ (deliver_ok _) ⟨trivial, trivial⟩⟩
          intro tracker isTracker
          rcases List.mem_append.mp isTracker with old | new
          · exact Or.inl old
          · rw [List.mem_singleton.mp new]
            exact Or.inr rfl

theorem onResult_layout (found : stages[task.stageIndex]? = some stage)
    (layout : Layout stages kv s) (done : List TaskId) :
    Layout stages kv
      { (onResult s stage task budget (stage.runTask task)).1 with
        control := .completing done (onResult s stage task budget (stage.runTask task)).2 } := by
  have member := List.mem_of_getElem? found
  have branch : BranchOk stages s stage (onResult s stage task budget (stage.runTask task)) :=
    onResult_ok member (List.getElem?_eq_some_iff.mp found).1 _
  refine layout.transport (extends_refl _) branch.tasks branch.active ?_ branch.script
  intro tracker isTracker
  rcases branch.trackers tracker isTracker with old | new
  · exact layout.trackers tracker old
  · exact ⟨stage, member, new.symm⟩

/-- The queues and the active futures once the running task `task` is taken out. -/
structure Detached (stages : List (Stage α)) (s : ExecState α) (task : Task α)
    (stage : Stage α) (tasks : StageTasks α) (budget : Int) : Prop where
  found : stages[task.stageIndex]? = some stage
  present : s.tasks[task.stageIndex]? = some tasks
  holds : tasks.runningTasks.get? task.taskId = some budget
  active : ∃ before after, s.active = before ++ task :: after ∧
    (s.detach task (tasks.detachBudget task.taskId).2).active = before ++ after

theorem detached_view {tasks : StageTasks α}
    (detached : Detached stages s task stage tasks budget) :
    s.view stages =
      viewBefore stages (s.detach task (tasks.detachBudget task.taskId).2) task stage budget := by
  obtain ⟨before, after, active, remaining⟩ := detached.active
  ext1
  · have waits := waitingTasks_set_same detached.found detached.present
      (tasks.runningTasks.erase task.taskId)
    simp only [view, View.withRunning, remaining, active]
    rw [detach, StageTasks.detachBudget, waits, ← Multiset.coe_add,
      ← Multiset.coe_add, ← Multiset.cons_coe, ← Multiset.singleton_add,
      ← Multiset.singleton_add]
    abel
  · exact (heldBy_detach detached.found detached.present detached.holds tasks.waitingTasks).symm
  all_goals rfl

theorem detached_layout {tasks : StageTasks α} (layout : Layout stages kv s)
    (sound : (s.view stages).Sound) (detached : Detached stages s task stage tasks budget) :
    Layout stages kv (s.detach task (tasks.detachBudget task.taskId).2) := by
  obtain ⟨before, after, active, remaining⟩ := detached.active
  have distinct : (s.active.map Task.taskId).Nodup := by
    have nodup := sound.ids_nodup
    simp only [view, Multiset.map_add, Multiset.nodup_add] at nodup
    exact Multiset.coe_nodup.mp nodup.1.2.1
  have notBefore : ∀ other ∈ before, other.taskId ≠ task.taskId := by
    intro other member same
    rw [active, List.map_append, List.map_cons] at distinct
    apply List.disjoint_of_nodup_append distinct (List.mem_map_of_mem member)
    rw [same]
    exact List.mem_cons_self ..
  refine ⟨?_, layout.registered, ?_, ?_, ?_, layout.trackers, layout.script⟩
  · simp [detach, layout.aligned]
  · intro i other atIndex
    rcases getElem?_set_cases atIndex with ⟨rfl, rfl⟩ | ⟨-, old⟩
    · exact layout.waiting _ tasks detached.present
    · exact layout.waiting i other old
  · intro i other atIndex
    rw [remaining]
    rcases getElem?_set_cases atIndex with ⟨rfl, rfl⟩ | ⟨different, old⟩
    · rw [StageTasks.detachBudget, Dict.keys_erase, layout.running _ tasks detached.present,
        active]
      simp only [List.filter_append, List.map_append, List.filter_cons, decide_true, if_true,
        List.map_cons]
      rw [List.erase_append_right, List.erase_cons_head]
      intro isBefore
      obtain ⟨other, member, same⟩ := List.mem_map.mp isBefore
      exact notBefore other (List.mem_of_mem_filter member) same
    · rw [layout.running i other old, active]
      simp [Ne.symm different]
  · intro other member
    rw [remaining] at member
    apply layout.active
    rw [active, List.mem_append, List.mem_cons]
    rcases List.mem_append.mp member with early | late
    · exact Or.inl early
    · exact Or.inr (Or.inr late)

theorem detached_of_find? {tasks : StageTasks α} (layout : Layout stages kv s)
    (isFirst : s.active.find? (fun other => other.taskId = task.taskId) = some task)
    (found : stages[task.stageIndex]? = some stage)
    (present : s.tasks[task.stageIndex]? = some tasks) :
    ∃ budget, (tasks.detachBudget task.taskId).1 = budget ∧
      Detached stages s task stage tasks budget := by
  obtain ⟨-, before, after, active, earlier⟩ := List.find?_eq_some_iff_append.mp isFirst
  have running : task.taskId ∈ tasks.runningTasks.keys := by
    rw [layout.running _ tasks present]
    exact List.mem_map_of_mem (List.mem_filter.mpr ⟨List.mem_of_find?_eq_some isFirst, by simp⟩)
  obtain ⟨budget, holds⟩ := Option.ne_none_iff_exists'.mp
    ((Dict.get?_eq_none_iff _ _).not.mpr (not_not.mpr running))
  refine ⟨budget, by simp [StageTasks.detachBudget, Dict.getD, holds], found, present, holds,
    before, after, active, ?_⟩
  rw [detach, active, List.eraseP_append_right _ (by simpa using earlier),
    List.eraseP_cons_of_pos (by simp)]

end Completion

/-! ## Executing a script -/

section Perform

variable {stages : List (Stage α)} {m : Machine α} {done : List TaskId}
  {script : List (Action α)}

theorem enqueueTask_layout {kv : KVMemoryManager} {s : ExecState α}
    (layout : Layout stages kv s) {task : Task α} (bound : task.stageIndex < stages.length) :
    Layout stages kv (enqueueTask stages task s) ∧
      waitingTasks stages (enqueueTask stages task s).tasks =
        task ::ₘ waitingTasks stages s.tasks ∧
      heldBy stages (enqueueTask stages task s).tasks = heldBy stages s.tasks := by
  obtain ⟨stage, tasks, found, present⟩ := layout.stage_at bound
  have enqueued : enqueueTask stages task s =
      { s with tasks := s.tasks.set task.stageIndex (stage.enqueue tasks task) } := by
    simp [enqueueTask, found, present]
  rw [enqueued]
  refine ⟨⟨?_, layout.registered, ?_, ?_, layout.active, layout.trackers, layout.script⟩,
    waitingTasks_enqueue found present task, heldBy_set_same found present _⟩
  · simp [layout.aligned]
  · intro i other atIndex
    rcases getElem?_set_cases atIndex with ⟨rfl, rfl⟩ | ⟨-, old⟩
    · intro t member
      rcases List.mem_cons.mp ((insertTask_perm stage task tasks.waitingTasks).mem_iff.mp member)
        with rfl | queued
      · rfl
      · exact layout.waiting _ tasks present t queued
    · exact layout.waiting i other old
  · intro i other atIndex
    rcases getElem?_set_cases atIndex with ⟨rfl, rfl⟩ | ⟨-, old⟩
    · exact layout.running _ tasks present
    · exact layout.running i other old

theorem enqueue_refines (layout : Layout stages m.kv m.exec) {task : Task α}
    (bound : task.stageIndex < stages.length) (ok : ScriptOk stages script)
    (tasksEq : scriptTasks m.exec.control.script = task :: scriptTasks script)
    (eventsEq : scriptEvents m.exec.control.script = scriptEvents script)
    (trackersEq : scriptTrackers m.exec.control.script = scriptTrackers script)
    (raisesEq : m.exec.control.failing = scriptRaises script) : Refines stages m { m with exec :=
      { enqueueTask stages task m.exec with control := .completing done script } } := by
  obtain ⟨layout', waits, holds⟩ := enqueueTask_layout layout bound
  refine ⟨?_, layout'.withControl (extends_refl _) _ ok⟩
  have unchanged : (enqueueTask stages task m.exec).active = m.exec.active ∧
      (enqueueTask stages task m.exec).trackers = m.exec.trackers ∧
      (enqueueTask stages task m.exec).out = m.exec.out ∧
      (enqueueTask stages task m.exec).log = m.exec.log ∧
      (enqueueTask stages task m.exec).nextTaskId = m.exec.nextTaskId := by
    unfold enqueueTask
    split <;> exact ⟨rfl, rfl, rfl, rfl, rfl⟩
  have same : view stages
      { enqueueTask stages task m.exec with control := .completing done script } =
        m.exec.view stages := by
    simp only [view, waits, holds, unchanged, tasksEq, eventsEq, trackersEq, raisesEq,
      Control.script_completing, Control.failing_completing, ← Multiset.cons_coe,
      Multiset.cons_add, Multiset.add_cons]
  rw [same]
  exact Effect.silent (fun _ => rfl) (fun _ => rfl)

theorem childFinished_eq (s : ExecState α) (k : TrackerId) (tracker : JoinTracker)
    (found : s.trackers[k]? = some tracker) :
    (childFinished k s).1 = { s with trackers := s.trackers.set k tracker.afterChild } ∧
      scriptEvents (childFinished k s).2 = tracker.firing k ∧
      scriptTasks (childFinished k s).2 = [] ∧ scriptTrackers (childFinished k s).2 = [] ∧
      scriptRaises (childFinished k s).2 = false := by
  by_cases last : tracker.pendingChildren - 1 = 0
  · cases pin : tracker.parentPin with
    | none | some request =>
      by_cases positive : tracker.reservedBudget > 0
      · simp [childFinished, found, last, pin, positive, JoinTracker.afterChild,
          JoinTracker.firing, JoinTracker.reservation]
      · simp [childFinished, found, last, pin, positive, JoinTracker.afterChild,
          JoinTracker.firing]
  · simp [childFinished, found, last, JoinTracker.afterChild, JoinTracker.firing]

theorem childFinished_ok {s : ExecState α} {k : TrackerId}
    (known : ∀ tracker ∈ s.trackers, ∃ stage ∈ stages, stage.stageId = tracker.stageId) :
    ∀ action ∈ (childFinished k s).2, ∀ rest, action.Ok stages rest := by
  intro action member rest
  unfold childFinished at member
  split at member
  · cases member
  · rename_i tracker found
    simp only at member
    split at member
    · rcases List.mem_append.mp member with isUnpin | isRelease
      · obtain ⟨request, -, rfl⟩ := List.mem_map.mp isUnpin
        trivial
      · split at isRelease
        · rw [List.mem_singleton.mp isRelease]
          exact known tracker (List.mem_of_getElem? found)
        · cases isRelease
    · cases member

theorem childFinished_refines (layout : Layout stages m.kv m.exec)
    (sound : (m.exec.view stages).Sound) {k : TrackerId}
    (control : m.exec.control = .completing done (.childFinished k :: script)) :
    Refines stages m { m with exec :=
      { (childFinished k m.exec).1 with
        control := .completing done ((childFinished k m.exec).2 ++ script) } } := by
  have told : (m.exec.view stages).finishing = k ::ₘ (scriptTrackers script : Multiset _) := by
    simp [view, control]
  have bound : k < m.exec.trackers.length := by
    apply sound.finishing_lt
    rw [told]
    exact Multiset.mem_cons_self _ _
  have found := List.getElem?_eq_getElem bound
  set tracker := m.exec.trackers[k]
  obtain ⟨stateEq, eventsEq, tasksEq, trackersEq, raisesEq⟩ :=
    childFinished_eq m.exec k tracker found
  have scriptOk := layout.script
  simp only [control, Control.script_completing] at scriptOk
  constructor
  · convert Effect.childFinished k tracker told found using 1
    simp [stateEq, view, View.signal, control, eventsEq, tasksEq, trackersEq, raisesEq]
  · rw [stateEq]
    refine layout.transport (extends_refl _) rfl rfl ?_
      (scriptOk_append _ _ _ (childFinished_ok layout.trackers) scriptOk.2)
    intro other member
    rcases List.mem_or_eq_of_mem_set member with old | rfl
    · exact layout.trackers other old
    · exact layout.trackers tracker (List.mem_of_getElem? found)

theorem perform_refines (layout : Layout stages m.kv m.exec)
    (sound : (m.exec.view stages).Sound) (choice : Choice) {action : Action α}
    (control : m.exec.control = .completing done (action :: script)) :
    Refines stages m (perform stages choice done script m action) := by
  have scriptOk := layout.script
  simp only [control, Control.script_completing] at scriptOk
  obtain ⟨ok, rest⟩ := scriptOk
  cases action with
  | enqueue task =>
    apply enqueue_refines layout ok rest
    all_goals simp [control]
  | deliver task =>
    by_cases final : stages.length ≤ task.stageIndex
    · simp only [perform, if_pos final]
      have leaves : (m.exec.view stages).live = task ::ₘ
          (waitingTasks stages m.exec.tasks + (m.exec.active : Multiset (Task α)) +
            (scriptTasks script : Multiset (Task α))) := by
        simp [view, control, ← Multiset.cons_coe]
      refine ⟨?_, layout.transport (extends_refl _) rfl rfl layout.trackers ?_⟩
      · convert Effect.emit task leaves final using 1
        simp [view, control, script_finalizeTask]
      · apply scriptOk_append _ _ _ _ rest
        intro other member later
        obtain ⟨k, -, rfl⟩ := List.mem_map.mp member
        trivial
    · simp only [perform, if_neg final]
      apply enqueue_refines layout (Nat.not_le.mp final) rest
      all_goals simp [control]
  | release reservation tracker =>
    obtain ⟨stage, member, sameId⟩ := ok
    obtain ⟨kv', released, releases, grows⟩ := m.kv.releaseStage_spec reservation.stageId
      reservation.budget (sameId ▸ layout.registered stage member)
    have isDue : (m.exec.view stages).due =
        .release reservation tracker ::ₘ (scriptEvents script : Multiset ExecEvent) := by
      simp [view, control]
    simp only [perform, released]
    refine ⟨?_, layout.transport grows rfl rfl layout.trackers rest⟩
    convert Effect.release reservation tracker isDue releases using 1
    simp [view, control]
  | unpin request tracker =>
    have isDue : (m.exec.view stages).due =
        .unpin request tracker ::ₘ (scriptEvents script : Multiset ExecEvent) := by
      simp [view, control]
    simp only [perform]
    refine ⟨?_, layout.transport (extends_refl _) rfl rfl layout.trackers rest⟩
    convert Effect.unpin request tracker isDue using 1
    simp [view, control]
  | childFinished k => exact childFinished_refines layout sound control
  | rebalance =>
    refine ⟨?_, layout.withControl (rebalance_extends choice _) _ rest⟩
    have same : (perform stages choice done script m .rebalance).exec.view stages =
        m.exec.view stages := by
      simp [perform, view, control]
    rw [same]
    exact Effect.silent (rebalance_used choice _) (rebalance_inflight choice _)
  | raise =>
    simp only [Action.Ok] at ok
    subst ok
    refine ⟨?_, layout.withControl (extends_refl _) _ trivial⟩
    have same : (perform stages choice done [] m .raise).exec.view stages = m.exec.view stages := by
      simp [perform, view, control]
    rw [same]
    exact Effect.silent (fun _ => rfl) (fun _ => rfl)

end Perform

/-! ## Entering the loop -/

section Enter

variable {stages : List (Stage α)} {kv : KVMemoryManager}

/-- The view in which the loop is entered, with the tasks of the input contexts. -/
def View.initial (firstTaskId : TaskId) (roots : List (Task α)) : View α where
  live := roots
  held := 0
  due := 0
  finishing := 0
  trackers := []
  out := []
  log := []
  nextTaskId := firstTaskId + roots.length
  failing := false

/-- The positions of the input contexts: the first operator of the first stage. -/
def rootPositions (stages : List (Stage α)) (ctxs : List (SemContext α)) : List (Position α) :=
  if stages.isEmpty then [] else ctxs.map fun ctx => ⟨ctx, 0, 0⟩

theorem enqueueTask_eq (stages : List (Stage α)) (task : Task α) (s : ExecState α) :
    ∃ tasks, enqueueTask stages task s = { s with tasks := tasks } := by
  unfold enqueueTask
  split
  · exact ⟨_, rfl⟩
  · exact ⟨s.tasks, rfl⟩

theorem enqueueAll_spec (roots : List (Task α)) :
    ∀ s : ExecState α, Layout stages kv s → (∀ task ∈ roots, task.stageIndex < stages.length) →
      ∃ tasks, roots.foldl (fun s task => enqueueTask stages task s) s =
          { s with tasks := tasks } ∧
        Layout stages kv { s with tasks := tasks } ∧
        waitingTasks stages tasks = roots + waitingTasks stages s.tasks ∧
        heldBy stages tasks = heldBy stages s.tasks := by
  induction roots with
  | nil =>
    intro s layout _
    exact ⟨s.tasks, rfl, layout, by simp, rfl⟩
  | cons root roots ih =>
    intro s layout bounds
    obtain ⟨layout', waits, holds⟩ :=
      enqueueTask_layout layout (bounds root (List.mem_cons_self ..))
    obtain ⟨queues, enqueued⟩ := enqueueTask_eq stages root s
    rw [enqueued] at layout' waits holds
    obtain ⟨tasks, folded, finalLayout, finalWaits, finalHolds⟩ := ih _ layout'
      (fun task member => bounds task (List.mem_cons_of_mem _ member))
    refine ⟨tasks, ?_, finalLayout, ?_, finalHolds.trans holds⟩
    · rw [List.foldl_cons, enqueued, folded]
    · rw [finalWaits, waits, ← Multiset.cons_coe, Multiset.add_cons, Multiset.cons_add]

theorem alignedSum_clear {M : Type} [AddCommMonoid M] (f : Stage α → StageTasks α → M)
    (zero : ∀ stage, f stage StageTasks.clearTasks = 0) (stages : List (Stage α)) :
    alignedSum f stages (stages.map fun _ => StageTasks.clearTasks) = 0 := by
  induction stages with
  | nil => simp
  | cons stage stages ih => rw [List.map_cons, alignedSum_cons, zero, ih, add_zero]

theorem cleared_view (stages : List (Stage α)) (firstTaskId : TaskId) :
    (cleared stages firstTaskId).view stages = View.initial firstTaskId [] := by
  have noWaiting : waitingTasks stages (stages.map fun _ => StageTasks.clearTasks) = 0 :=
    alignedSum_clear _ (fun _ => rfl) stages
  have noHeld : heldBy stages (stages.map fun _ => StageTasks.clearTasks) = 0 :=
    alignedSum_clear _ (fun _ => rfl) stages
  simp only [view, cleared, noWaiting, noHeld]
  rfl

theorem cleared_layout (registered : ∀ stage ∈ stages, kv.Registered stage.stageId)
    (firstTaskId : TaskId) : Layout stages kv (cleared stages firstTaskId) := by
  have empty : ∀ (i : Nat) (other : StageTasks α),
      (cleared stages firstTaskId).tasks[i]? = some other → other = StageTasks.clearTasks := by
    intro i other atIndex
    rw [cleared, List.getElem?_map] at atIndex
    obtain ⟨-, -, rfl⟩ := Option.map_eq_some_iff.mp atIndex
    rfl
  refine ⟨by simp [cleared], registered, ?_, ?_, by simp [cleared], by simp [cleared], trivial⟩
  · intro i other atIndex task member
    rw [empty i other atIndex] at member
    cases member
  · intro i other atIndex
    rw [empty i other atIndex]
    rfl

theorem enter_spec (registered : ∀ stage ∈ stages, kv.Registered stage.stageId)
    (firstTaskId : TaskId) (ctxs : List (SemContext α)) :
    Layout stages kv (enter stages firstTaskId ctxs) ∧
      ∃ roots, Children firstTaskId [] (rootPositions stages ctxs) roots ∧
        (enter stages firstTaskId ctxs).view stages = View.initial firstTaskId roots := by
  have initialView := cleared_view stages firstTaskId
  have initialLayout := cleared_layout registered firstTaskId
  by_cases empty : stages.isEmpty
  · rw [enter, if_pos empty, rootPositions, if_pos empty]
    exact ⟨initialLayout, [], ⟨rfl, rfl, by simp, by simp⟩, initialView⟩
  · have fresh := newTasks_children (cleared stages firstTaskId) 0 [] ctxs
    have bounds : ∀ task ∈ (cleared stages firstTaskId).newTasks 0 [] ctxs,
        task.stageIndex < stages.length := by
      intro task member
      obtain ⟨i, bound, rfl⟩ := List.mem_mapIdx.mp member
      exact List.length_pos_iff.mpr (by simpa using empty)
    obtain ⟨tasks, folded, layout, waits, holds⟩ :=
      enqueueAll_spec _ (cleared stages firstTaskId) initialLayout bounds
    have noWaiting : waitingTasks stages (cleared stages firstTaskId).tasks = 0 :=
      alignedSum_clear _ (fun _ => rfl) stages
    have noHeld : heldBy stages (cleared stages firstTaskId).tasks = 0 :=
      alignedSum_clear _ (fun _ => rfl) stages
    rw [enter, if_neg empty, rootPositions, if_neg empty]
    simp only [folded]
    refine ⟨layout.transport (extends_refl _) rfl rfl layout.trackers layout.script, _, fresh, ?_⟩
    simp only [view, waits, holds, noWaiting, noHeld, add_zero]
    simp [cleared, View.initial, Control.script, Control.failing]

theorem View.initial_sound {firstTaskId : TaskId} {positions : List (Position α)}
    {roots : List (Task α)} (fresh : Children firstTaskId [] positions roots) :
    (View.initial firstTaskId roots).Sound where
  ids_nodup := Multiset.coe_nodup.mpr fresh.ids_nodup
  ids_lt := fun task member => (fresh.id_range (Multiset.mem_coe.mp member)).2
  unreserved := fun task member => fresh.unreserved task (Multiset.mem_coe.mp member)
  trackers_lt := by
    intro task member k carried
    rw [fresh.trackers task (Multiset.mem_coe.mp member)] at carried
    cases carried
  finishing_lt := by
    intro k member
    cases Multiset.notMem_zero k member

end Enter

end Kalypso.Query
