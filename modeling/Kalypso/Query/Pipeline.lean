import Kalypso.Query.Stage

/-!
# The event loop of `AsyncPipelineExecutor.execute_tasks`

The coroutine is a machine with an explicit control point.  A step is one atomic piece of
the loop body, at most one call of the memory manager, so that every state the other
coroutines of the process can observe (and more) is a state between two steps.

Three things are not decided by the coroutine and come from a `Choice`: the capacities that
a rebalancing pass leaves behind, the ratios that the map estimator has learnt, and which
active futures have completed, in which order.  Since the capacities are arbitrary, so is
every sequence of admission outcomes.

The machine also writes a history (`log`), which no branch reads.
-/

set_option autoImplicit false

namespace Kalypso.Query

open Kalypso.Lib

variable {α : Type}

/-- `parentTask` and `parentPin` stand for the reference `parent_ctx` and the `pin_req_id`
found there. -/
structure JoinTracker where
  parentTask : TaskId
  parentPin : Option RequestId
  pendingChildren : Int
  stageId : StageId
  reservedBudget : Int
deriving DecidableEq, Repr

/-- A reservation: the task it was made for, the stage it was made on, and its bytes. -/
structure Reservation where
  task : TaskId
  stageId : StageId
  budget : Int
deriving DecidableEq, Repr

/-- The history: a task created from another, and the reservations made and given back.
`tracker` tells a release or an unpin made by `JoinTracker.child_finished`. -/
inductive ExecEvent where
  | spawn (parent child : TaskId)
  | reserve (reservation : Reservation)
  | release (reservation : Reservation) (tracker : Option TrackerId)
  | unpin (request : RequestId) (tracker : Option TrackerId)
deriving DecidableEq, Repr

/-- The statements that remain to be executed for a completed future, in program order. -/
inductive Action (α : Type) where
  | enqueue (task : Task α)
  | deliver (task : Task α)
  | release (reservation : Reservation) (tracker : Option TrackerId)
  | unpin (request : RequestId) (tracker : Option TrackerId)
  | childFinished (tracker : TrackerId)
  | rebalance
  | raise

inductive ExecError where
  | keyError
  | taskException
  | noRunnableTasks
deriving DecidableEq, Repr

inductive Control (α : Type) where
  | loopHead
  | launching (idx : Nat)
  | afterLaunch
  | forcing (idx : Nat) (launched : Bool)
  | completing (done : List TaskId) (script : List (Action α))
  | returned
  | raised (error : ExecError)

structure StageStat where
  input : Nat
  output : Nat
deriving DecidableEq, Repr

structure ExecState (α : Type) where
  tasks : List (StageTasks α)
  active : List (Task α)
  out : List (SemContext α)
  stageStat : Dict StageId StageStat
  trackers : List JoinTracker
  nextTaskId : TaskId
  control : Control α
  log : List ExecEvent

structure Machine (α : Type) where
  kv : KVMemoryManager
  exec : ExecState α

structure Choice where
  rebalanced : StageId → ℚ → ℚ
  ratios : MapRatios
  done : List TaskId

namespace ExecState

def recordInput (s : ExecState α) (stageId : StageId) : ExecState α :=
  { s with stageStat := s.stageStat.set stageId (match s.stageStat.get? stageId with
      | some stat => { stat with input := stat.input + 1 }
      | none => ⟨1, 0⟩) }

def recordOutput (s : ExecState α) (stageId : StageId) (count : Nat) : ExecState α :=
  let stat := s.stageStat.getD stageId ⟨0, 0⟩
  { s with stageStat := s.stageStat.set stageId { stat with output := stat.output + count } }

def hasPendingWork (s : ExecState α) : Bool := s.tasks.any StageTasks.hasWaitingTasks

def newTasks (s : ExecState α) (stageIndex : Nat) (trackers : List TrackerId)
    (ctxs : List (SemContext α)) : List (Task α) :=
  ctxs.mapIdx fun i ctx =>
    { ctx := ctx, stageIndex := stageIndex, trackers := trackers, taskId := s.nextTaskId + i }

def spawned (s : ExecState α) (parent : TaskId) (children : List (Task α)) : ExecState α :=
  { s with
    nextTaskId := s.nextTaskId + children.length
    log := s.log ++ children.map fun child => .spawn parent child.taskId }

def detach (s : ExecState α) (task : Task α) (tasks : StageTasks α) : ExecState α :=
  { s with
    active := s.active.eraseP fun other => other.taskId = task.taskId
    tasks := s.tasks.set task.stageIndex tasks }

end ExecState

/-- A rebalancing pass moves capacity between stages and touches nothing else. -/
def rebalance (choice : Choice) (kv : KVMemoryManager) : KVMemoryManager :=
  { kv with stageCapacity := kv.stageCapacity.mapValues choice.rebalanced }

section Step

variable (stages : List (Stage α))

def launch (idx : Nat) (stage : Stage α) (tasks : StageTasks α) (task : Task α)
    (kv : KVMemoryManager) (reservation : Option Reservation) (s : ExecState α) :
    Machine α where
  kv := kv
  exec :=
    { s.recordInput stage.stageId with
      tasks := s.tasks.set idx tasks.popTask
      active := s.active ++ [task]
      log := s.log ++ reservation.toList.map .reserve }

def newReservation (stage : Stage α) (ratios : MapRatios) (task : Task α) : Option Reservation :=
  if task.reservedBudget > 0 then none
  else some ⟨task.taskId, stage.stageId, stage.estimateBudget ratios task⟩

/-- One round of the inner loop of `launch_ready_tasks` at stage `idx`. -/
def launchReady (choice : Choice) (idx : Nat) (m : Machine α) : Machine α :=
  match stages[idx]?, m.exec.tasks[idx]? with
  | some stage, some tasks =>
      match tasks.peekTask with
      | none => { m with exec := { m.exec with control := .launching (idx + 1) } }
      | some task =>
          match stage.accept choice.ratios tasks task m.kv with
          | .keyError => { m with exec := { m.exec with control := .raised .keyError } }
          | .refused => { m with exec := { m.exec with control := .launching (idx + 1) } }
          | .started tasks' task' kv' =>
              launch idx stage tasks' task' kv' (newReservation stage choice.ratios task)
                { m.exec with control := .launching idx }
  | _, _ => { m with exec := { m.exec with control := .afterLaunch } }

def launchForced (choice : Choice) (idx : Nat) (launched : Bool) (m : Machine α) : Machine α :=
  match stages[idx]?, m.exec.tasks[idx]? with
  | some stage, some tasks =>
      match tasks.peekTask with
      | none => { m with exec := { m.exec with control := .forcing (idx + 1) launched } }
      | some task =>
          match stage.forceAccept choice.ratios tasks task m.kv with
          | .started tasks' task' kv' =>
              launch idx stage tasks' task' kv' (newReservation stage choice.ratios task)
                { m.exec with control := .forcing (idx + 1) true }
          | _ => { m with exec := { m.exec with control := .raised .keyError } }
  | _, _ =>
      { m with exec := { m.exec with
          control := if launched then .loopHead else .raised .noRunnableTasks } }

def finalizeTask (trackers : List TrackerId) : List (Action α) :=
  trackers.map .childFinished

def onRetry (s : ExecState α) (stage : Stage α) (task : Task α) (budget : Int)
    (ctx : SemContext α) (opIndex : Nat) (retainBudget : Bool) : ExecState α × List (Action α) :=
  let retryTask : Task α :=
    { ctx := ctx
      stageIndex := task.stageIndex
      trackers := task.trackers
      opIndex := opIndex
      retryPriority := some (-((stage.priorityOffset : Int) + opIndex))
      reservedBudget := if retainBudget then budget else 0
      taskId := s.nextTaskId }
  (s.spawned task.taskId [retryTask],
    .enqueue retryTask ::
      ((if retainBudget then [] else [.release ⟨task.taskId, stage.stageId, budget⟩ none]) ++
        [.rebalance]))

def onDrop (s : ExecState α) (stage : Stage α) (task : Task α) (budget : Int) :
    ExecState α × List (Action α) :=
  (s, .release ⟨task.taskId, stage.stageId, budget⟩ none :: .rebalance ::
    finalizeTask task.trackers)

def onEmptyFanout (s : ExecState α) (stage : Stage α) (task : Task α) (budget : Int)
    (ctx : SemContext α) : ExecState α × List (Action α) :=
  (s.recordOutput stage.stageId 0,
    ctx.pinReqId.toList.map (fun request => .unpin request none) ++
      .release ⟨task.taskId, stage.stageId, budget⟩ none :: .rebalance ::
        finalizeTask task.trackers)

/-- The fan-out branch of a pinned parent: its reservation moves to a new tracker. -/
def onPinnedFanout (s : ExecState α) (stage : Stage α) (task : Task α) (budget : Int)
    (request : RequestId) (childCtxs : List (SemContext α)) : ExecState α × List (Action α) :=
  let tracker : JoinTracker :=
    { parentTask := task.taskId
      parentPin := some request
      pendingChildren := childCtxs.length
      stageId := stage.stageId
      reservedBudget := budget }
  let children := s.newTasks (task.stageIndex + 1) (task.trackers ++ [s.trackers.length]) childCtxs
  let s := (s.recordOutput stage.stageId childCtxs.length).spawned task.taskId children
  ({ s with trackers := s.trackers ++ [tracker] },
    children.map .deliver ++ [.rebalance])

def onPlainFanout (s : ExecState α) (stage : Stage α) (task : Task α) (budget : Int)
    (childCtxs : List (SemContext α)) : ExecState α × List (Action α) :=
  let children := s.newTasks (task.stageIndex + 1) task.trackers childCtxs
  ((s.recordOutput stage.stageId childCtxs.length).spawned task.taskId children,
    children.map .deliver ++
      [.release ⟨task.taskId, stage.stageId, budget⟩ none, .rebalance])

def onAdvance (s : ExecState α) (stage : Stage α) (task : Task α) (budget : Int)
    (ctx : SemContext α) : ExecState α × List (Action α) :=
  let next := s.newTasks (task.stageIndex + 1) task.trackers [ctx]
  ((s.recordOutput stage.stageId 1).spawned task.taskId next,
    next.map .deliver ++ [.release ⟨task.taskId, stage.stageId, budget⟩ none, .rebalance])

def onResult (s : ExecState α) (stage : Stage α) (task : Task α) (budget : Int) :
    TaskResult α → ExecState α × List (Action α)
  | .raised => (s, [.release ⟨task.taskId, stage.stageId, budget⟩ none, .raise])
  | .retry ctx opIndex retainBudget => onRetry s stage task budget ctx opIndex retainBudget
  | .dropped => onDrop s stage task budget
  | .finished ctx =>
      match stage.fanoutOp with
      | none => onAdvance s stage task budget ctx
      | some op =>
          match op.call ctx, ctx.pinReqId with
          | [], _ => onEmptyFanout s stage task budget ctx
          | childCtxs, some request => onPinnedFanout s stage task budget request childCtxs
          | childCtxs, none => onPlainFanout s stage task budget childCtxs

/-- `active.pop(future)`, `detach_budget` and the branch for the result. -/
def complete (taskId : TaskId) (done : List TaskId) (s : ExecState α) : ExecState α :=
  match s.active.find? (fun task => task.taskId = taskId) with
  | none => { s with control := .completing done [] }
  | some task =>
      match stages[task.stageIndex]?, s.tasks[task.stageIndex]? with
      | some stage, some tasks =>
          let (budget, tasks') := tasks.detachBudget taskId
          let (s, script) :=
            onResult (s.detach task tasks') stage task budget (stage.runTask task)
          { s with control := .completing done script }
      | _, _ => { s with control := .completing done [] }

/-- The completed futures: those of the choice that are active, or else the oldest one. -/
def doneFutures (choice : Choice) (active : List (Task α)) : List TaskId :=
  match (choice.done.filter fun id => active.any fun task => task.taskId = id).dedup with
  | [] => (active.head?.map Task.taskId).toList
  | done => done

/-- `asyncio.wait`, followed by the first round of the completion loop. -/
def waitFirstCompleted (choice : Choice) (s : ExecState α) : ExecState α :=
  match doneFutures choice s.active with
  | [] => s
  | first :: rest => complete stages first rest s

def enqueueTask (task : Task α) (s : ExecState α) : ExecState α :=
  match stages[task.stageIndex]?, s.tasks[task.stageIndex]? with
  | some stage, some tasks =>
      { s with tasks := s.tasks.set task.stageIndex (stage.enqueue tasks task) }
  | _, _ => s

/-- `JoinTracker.child_finished`; the unpin and the release it awaits are left to do. -/
def childFinished (k : TrackerId) (s : ExecState α) : ExecState α × List (Action α) :=
  match s.trackers[k]? with
  | none => (s, [])
  | some tracker =>
      let tracker := { tracker with pendingChildren := tracker.pendingChildren - 1 }
      if tracker.pendingChildren = 0 then
        ({ s with trackers := s.trackers.set k { tracker with parentPin := none } },
          tracker.parentPin.toList.map (fun request => .unpin request (some k)) ++
            if tracker.reservedBudget > 0 then
              [.release ⟨tracker.parentTask, tracker.stageId, tracker.reservedBudget⟩ (some k)]
            else [])
      else ({ s with trackers := s.trackers.set k tracker }, [])

def perform (choice : Choice) (done : List TaskId) (script : List (Action α)) (m : Machine α) :
    Action α → Machine α
  | .enqueue task =>
      { m with exec :=
          { enqueueTask stages task m.exec with control := .completing done script } }
  | .deliver task =>
      if stages.length ≤ task.stageIndex then
        { m with exec := { m.exec with
            out := m.exec.out ++ [task.ctx]
            control := .completing done (finalizeTask task.trackers ++ script) } }
      else
        { m with exec :=
            { enqueueTask stages task m.exec with control := .completing done script } }
  | .release reservation tracker =>
      match m.kv.releaseStage reservation.stageId reservation.budget with
      | none => { m with exec := { m.exec with control := .raised .keyError } }
      | some kv =>
          { kv := kv
            exec := { m.exec with
              control := .completing done script
              log := m.exec.log ++ [.release reservation tracker] } }
  | .unpin request tracker =>
      { m with exec := { m.exec with
          control := .completing done script
          log := m.exec.log ++ [.unpin request tracker] } }
  | .childFinished k =>
      let (s, actions) := childFinished k m.exec
      { m with exec := { s with control := .completing done (actions ++ script) } }
  | .rebalance =>
      { kv := rebalance choice m.kv
        exec := { m.exec with control := .completing done script } }
  | .raise => { m with exec := { m.exec with control := .raised .taskException } }

def step (choice : Choice) (m : Machine α) : Machine α :=
  match m.exec.control with
  | .loopHead =>
      if m.exec.hasPendingWork || !m.exec.active.isEmpty then
        { kv := rebalance choice m.kv
          exec := { m.exec with control := .launching 0 } }
      else { m with exec := { m.exec with control := .returned } }
  | .launching idx => launchReady stages choice idx m
  | .afterLaunch =>
      if m.exec.active.isEmpty then
        { m with exec := { m.exec with
            control := if m.exec.hasPendingWork then .forcing 0 false else .returned } }
      else { m with exec := waitFirstCompleted stages choice m.exec }
  | .forcing idx launched => launchForced stages choice idx launched m
  | .completing (next :: done) [] => { m with exec := complete stages next done m.exec }
  | .completing [] [] => { m with exec := { m.exec with control := .loopHead } }
  | .completing done (action :: script) => perform stages choice done script m action
  | .returned => m
  | .raised _ => m

def cleared (firstTaskId : TaskId) : ExecState α where
  tasks := stages.map fun _ => StageTasks.clearTasks
  active := []
  out := []
  stageStat := .empty
  trackers := []
  nextTaskId := firstTaskId
  control := .loopHead
  log := []

/-- The state in which the loop is entered: one task for every context in the first stage,
if there is one. -/
def enter (firstTaskId : TaskId) (ctxs : List (SemContext α)) : ExecState α :=
  if stages.isEmpty then cleared stages firstTaskId
  else
    let roots := (cleared stages firstTaskId).newTasks 0 [] ctxs
    { roots.foldl (fun s task => enqueueTask stages task s) (cleared stages firstTaskId) with
      nextTaskId := firstTaskId + roots.length }

def run (choices : Nat → Choice) (m : Machine α) : Nat → Machine α
  | 0 => m
  | n + 1 => step stages (choices n) (run choices m n)

end Step

def oldestFirst : Choice := ⟨fun _ capacity => capacity, fun _ => none, []⟩

end Kalypso.Query
