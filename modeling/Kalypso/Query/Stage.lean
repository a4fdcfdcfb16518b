import Mathlib.Data.List.Basic
import Mathlib.Data.Prod.Lex
import Mathlib.Order.WellFounded
import Kalypso.Query.Budget

/-!
# Contexts, operators, tasks and stages

`context.py`, the operator interface of `sem_ops/base.py` and `controller/stage.py`.  A
context keeps the one field of `ExecutionState` that the executor reads, `pin_req_id`; the
data of the tuple (input, output and the other state fields, which only operators touch) is
an arbitrary type `α`.

An operator is a function of the tuple.  Its three behaviours are three types, so that a
stage holds tuple-independent operators only and its `fanout_op` is a join.
-/

set_option autoImplicit false

namespace Kalypso.Query

open Kalypso.Lib

abbrev RequestId := String
abbrev TaskId := Nat
abbrev TrackerId := Nat

structure SemContext (α : Type) where
  data : α
  pinReqId : Option RequestId
deriving DecidableEq, Repr

/-- What awaiting a tuple-independent operator can give: the tuple goes on, is filtered
out (`False`), is to be run again (`RETRY_TASK`), or the operator raises. -/
inductive OpResult (α : Type) where
  | keepGoing (ctx : SemContext α)
  | drop
  | retry (ctx : SemContext α)
  | raise

/-- `MapRatioEstimator.get_ratio`, by operator position.  The estimator learns from finished
tasks, so an estimate is a function of the tuple and of its present ratios. -/
abbrev MapRatios := Int → Option ℚ

structure TupleOp (α : Type) where
  call : SemContext α → OpResult α
  estimateTokens : MapRatios → SemContext α → Nat
  /-- an operator asks for finitely many retries of one tuple -/
  retries_finite : WellFounded fun later earlier : SemContext α => call earlier = .retry later

/-- `planCall` is what planning uses in place of the call: for an
`IndexedCartesianProduct` the product with the first rows of its table. -/
structure JoinOp (α : Type) where
  call : SemContext α → List (SemContext α)
  indexed : Option (SemContext α → List (SemContext α))

def JoinOp.planCall {α : Type} (op : JoinOp α) : SemContext α → List (SemContext α) :=
  op.indexed.getD op.call

structure BlockingOp (α : Type) where
  call : List (SemContext α) → List (SemContext α)

inductive OpBehavior where
  | tupleIndependent
  | blocking
  | join
deriving DecidableEq, Repr

inductive BaseOp (α : Type) where
  | tuple (op : TupleOp α)
  | join (op : JoinOp α)
  | blocking (op : BlockingOp α)

def BaseOp.behavior {α : Type} : BaseOp α → OpBehavior
  | .tuple _ => .tupleIndependent
  | .join _ => .join
  | .blocking _ => .blocking

structure Task (α : Type) where
  ctx : SemContext α
  stageIndex : Nat
  trackers : List TrackerId := []
  opIndex : Nat := 0
  retryPriority : Option Int := none
  reservedBudget : Int := 0
  taskId : TaskId

structure Stage (α : Type) where
  stageId : StageId
  operators : List (TupleOp α)
  fanoutOp : Option (JoinOp α) := none
  priorityOffset : Nat := 0
  bytesPerToken : Nat

structure StageTasks (α : Type) where
  waitingTasks : List (Task α)
  runningTasks : Dict TaskId Int

inductive TaskResult (α : Type) where
  | finished (ctx : SemContext α)
  | dropped
  | retry (ctx : SemContext α) (opIndex : Nat) (retainBudget : Bool)
  | raised

namespace StageTasks

variable {α : Type}

def clearTasks : StageTasks α := ⟨[], .empty⟩

def hasWaitingTasks (tasks : StageTasks α) : Bool := !tasks.waitingTasks.isEmpty

def peekTask (tasks : StageTasks α) : Option (Task α) := tasks.waitingTasks.head?

def popTask (tasks : StageTasks α) : StageTasks α :=
  { tasks with waitingTasks := tasks.waitingTasks.tail }

def startRunning (tasks : StageTasks α) (task : Task α) (budget : Int) : StageTasks α :=
  { tasks with runningTasks := tasks.runningTasks.set task.taskId budget }

def detachBudget (tasks : StageTasks α) (taskId : TaskId) : Int × StageTasks α :=
  (tasks.runningTasks.getD taskId 0,
    { tasks with runningTasks := tasks.runningTasks.erase taskId })

end StageTasks

/-- What `accept` and `force_accept` can do: raise `KeyError`, refuse, or start the task. -/
inductive Admission (α : Type) where
  | keyError
  | refused
  | started (tasks : StageTasks α) (task : Task α) (kv : KVMemoryManager)

namespace Stage

variable {α : Type}

def taskPriority (stage : Stage α) (task : Task α) : Int :=
  match task.retryPriority with
  | some priority => priority
  | none => -((stage.priorityOffset : Int) + task.opIndex)

def precedes (stage : Stage α) (task queued : Task α) : Bool :=
  decide (stage.taskPriority task < stage.taskPriority queued) ||
    (decide (stage.taskPriority task = stage.taskPriority queued) &&
      decide (task.taskId < queued.taskId))

def insertTask (stage : Stage α) (task : Task α) : List (Task α) → List (Task α)
  | [] => [task]
  | queued :: rest =>
      if stage.precedes task queued then task :: queued :: rest
      else queued :: insertTask stage task rest

def enqueue (stage : Stage α) (tasks : StageTasks α) (task : Task α) : StageTasks α :=
  { tasks with waitingTasks := stage.insertTask task tasks.waitingTasks }

/-- The largest estimate among the operators still to run, starting from `-1`. -/
def maxBoundary (ratios : MapRatios) (ctx : SemContext α) (operators : List (TupleOp α)) : Int :=
  operators.foldl
    (fun boundary op =>
      if (op.estimateTokens ratios ctx : Int) > boundary then
        (op.estimateTokens ratios ctx : Int)
      else boundary)
    (-1)

section Boundary

variable (ratios : MapRatios) (ctx : SemContext α)

/-- The fold keeps the larger value, so its result bounds all of them and is one of them. -/
theorem foldl_boundary (operators : List (TupleOp α)) : ∀ boundary largest : Int,
    operators.foldl
        (fun boundary op =>
          if (op.estimateTokens ratios ctx : Int) > boundary then
            (op.estimateTokens ratios ctx : Int)
          else boundary) boundary = largest →
      boundary ≤ largest ∧ (∀ op ∈ operators, (op.estimateTokens ratios ctx : Int) ≤ largest) ∧
        (largest = boundary ∨ ∃ op ∈ operators, largest = op.estimateTokens ratios ctx) := by
  induction operators with
  | nil =>
    rintro boundary largest rfl
    exact ⟨le_refl _, (fun op member => nomatch member), Or.inl rfl⟩
  | cons op operators ih =>
    intro boundary largest folded
    rw [List.foldl_cons] at folded
    obtain ⟨above, others, attained⟩ := ih _ largest folded
    have both : boundary ≤ largest ∧ (op.estimateTokens ratios ctx : Int) ≤ largest := by
      split at above
      · omega
      · omega
    refine ⟨both.1, ?_, ?_⟩
    · intro other member
      cases List.mem_cons.mp member with
      | inl same => exact same ▸ both.2
      | inr later => exact others other later
    · cases attained with
      | inl start =>
        split at start
        · exact Or.inr ⟨op, List.mem_cons_self, start⟩
        · exact Or.inl start
      | inr later =>
        obtain ⟨other, member, same⟩ := later
        exact Or.inr ⟨other, List.mem_cons_of_mem _ member, same⟩

theorem estimate_le_maxBoundary {op : TupleOp α} {operators : List (TupleOp α)}
    (member : op ∈ operators) :
    (op.estimateTokens ratios ctx : Int) ≤ maxBoundary ratios ctx operators :=
  (foldl_boundary ratios ctx operators (-1) _ rfl).2.1 op member

theorem maxBoundary_attained {operators : List (TupleOp α)} (nonempty : operators ≠ []) :
    ∃ op ∈ operators, maxBoundary ratios ctx operators = op.estimateTokens ratios ctx := by
  cases (foldl_boundary ratios ctx operators (-1) _ rfl).2.2 with
  | inr attained => exact attained
  | inl start =>
    obtain ⟨op, member⟩ := List.exists_mem_of_ne_nil _ nonempty
    have bound := estimate_le_maxBoundary ratios ctx member
    rw [maxBoundary, start] at bound
    omega

end Boundary

def estimateBudget (stage : Stage α) (ratios : MapRatios) (task : Task α) : Int :=
  maxBoundary ratios task.ctx (stage.operators.drop task.opIndex) * stage.bytesPerToken

/-- A task that still holds a reservation runs on it; the others ask the manager. -/
def accept (stage : Stage α) (ratios : MapRatios) (tasks : StageTasks α) (task : Task α)
    (kv : KVMemoryManager) : Admission α :=
  if task.reservedBudget > 0 then
    .started (tasks.startRunning task task.reservedBudget) { task with reservedBudget := 0 } kv
  else
    match kv.tryAllocateStage stage.stageId (stage.estimateBudget ratios task) with
    | none => .keyError
    | some (false, _) => .refused
    | some (true, kv') =>
        .started (tasks.startRunning task (stage.estimateBudget ratios task)) task kv'

def forceAccept (stage : Stage α) (ratios : MapRatios) (tasks : StageTasks α) (task : Task α)
    (kv : KVMemoryManager) : Admission α :=
  if task.reservedBudget > 0 then
    .started (tasks.startRunning task task.reservedBudget) { task with reservedBudget := 0 } kv
  else
    match kv.forceAllocateStage stage.stageId (stage.estimateBudget ratios task) with
    | none => .keyError
    | some kv' =>
        .started (tasks.startRunning task (stage.estimateBudget ratios task)) task kv'

def runOperators : List (TupleOp α) → Nat → SemContext α → TaskResult α
  | [], _, ctx => .finished ctx
  | op :: rest, idx, ctx =>
      match op.call ctx with
      | .keepGoing ctx' => runOperators rest (idx + 1) ctx'
      | .drop => .dropped
      | .retry ctx' => .retry ctx' idx false
      | .raise => .raised

def runTask (stage : Stage α) (task : Task α) : TaskResult α :=
  runOperators (stage.operators.drop task.opIndex) task.opIndex task.ctx

/-- A retry comes from one of the operators that were run; if it is the first of them, it is
a retry of the very same tuple.  No budget is kept for it. -/
theorem runOperators_retry {operators : List (TupleOp α)} {idx opIndex : Nat}
    {ctx ctx' : SemContext α} {retainBudget : Bool}
    (result : runOperators operators idx ctx = .retry ctx' opIndex retainBudget) :
    retainBudget = false ∧ ∃ j op earlier, opIndex = idx + j ∧ operators[j]? = some op ∧
      op.call earlier = .retry ctx' ∧ (j = 0 → earlier = ctx) := by
  induction operators generalizing idx ctx with
  | nil => cases result
  | cons op operators ih =>
    rw [runOperators] at result
    split at result
    · obtain ⟨kept, j, other, earlier, index, found, again, -⟩ := ih result
      exact ⟨kept, j + 1, other, earlier, by omega, found, again,
        fun zero => absurd zero (Nat.succ_ne_zero j)⟩
    · cases result
    · rename_i again
      cases result
      exact ⟨rfl, 0, op, ctx, rfl, rfl, again, fun _ => rfl⟩
    · cases result

end Stage

def stageBuilder {α : Type} (kv : KVMemoryManager) (operators : List (TupleOp α))
    (stageId : StageId) (priorityOffset : Nat) : Stage α where
  stageId := stageId
  operators := operators
  priorityOffset := priorityOffset
  bytesPerToken := kv.bytesPerToken

/-! ## The queue of a stage -/

section Queue

variable {α : Type}

/-- What the queue is ordered by: priority first, then task id. -/
def Stage.sortKey (stage : Stage α) (task : Task α) : Int ×ₗ TaskId :=
  toLex (stage.taskPriority task, task.taskId)

theorem precedes_iff (stage : Stage α) (task queued : Task α) :
    stage.precedes task queued = true ↔ stage.sortKey task < stage.sortKey queued := by
  simp [Stage.precedes, Stage.sortKey, Prod.Lex.toLex_lt_toLex]

theorem insertTask_perm (stage : Stage α) (task : Task α) (queue : List (Task α)) :
    (stage.insertTask task queue).Perm (task :: queue) := by
  induction queue with
  | nil => exact List.Perm.refl _
  | cons queued queue ih =>
    rw [Stage.insertTask]
    split
    · exact List.Perm.refl _
    · exact (List.Perm.cons queued ih).trans (List.Perm.swap task queued queue)

/-- The scan stops at the first later element, and the elements behind it are later still. -/
theorem pairwise_insertTask (stage : Stage α) (task : Task α) {queue : List (Task α)}
    (sorted : queue.Pairwise (stage.sortKey · ≤ stage.sortKey ·)) :
    (stage.insertTask task queue).Pairwise (stage.sortKey · ≤ stage.sortKey ·) := by
  induction queue with
  | nil => exact List.pairwise_singleton _ _
  | cons queued queue ih =>
    obtain ⟨first, rest⟩ := List.pairwise_cons.mp sorted
    rw [Stage.insertTask]
    split
    · next before =>
      have earlier := ((precedes_iff stage task queued).mp before).le
      refine List.pairwise_cons.mpr ⟨?_, sorted⟩
      intro other member
      cases List.mem_cons.mp member with
      | inl same => exact same ▸ earlier
      | inr later => exact earlier.trans (first other later)
    · next before =>
      have notLater : stage.sortKey queued ≤ stage.sortKey task :=
        not_lt.mp (mt (precedes_iff stage task queued).mpr before)
      refine List.pairwise_cons.mpr ⟨?_, ih rest⟩
      intro other member
      cases List.mem_cons.mp ((insertTask_perm stage task queue).mem_iff.mp member) with
      | inl same => exact same ▸ notLater
      | inr later => exact first other later

inductive QueueCall (α : Type) where
  | enqueue (task : Task α)
  | popTask

/-- A stage with the tasks put into its queue and the tasks `pop_task` returned. -/
structure QueueHistory (α : Type) where
  tasks : StageTasks α := .clearTasks
  enqueued : List (Task α) := []
  popped : List (Task α) := []

/-- `pop_task` returns what `peek_task` shows, and `None` on an empty queue. -/
def QueueHistory.call (stage : Stage α) (run : QueueHistory α) : QueueCall α → QueueHistory α
  | .enqueue task =>
      { run with tasks := stage.enqueue run.tasks task, enqueued := task :: run.enqueued }
  | .popTask =>
      { run with tasks := run.tasks.popTask, popped := run.tasks.peekTask.toList ++ run.popped }

structure QueueHistory.Ordered (stage : Stage α) (run : QueueHistory α) : Prop where
  sorted : run.tasks.waitingTasks.Pairwise (stage.sortKey · ≤ stage.sortKey ·)
  accounted : (run.tasks.waitingTasks ++ run.popped).Perm run.enqueued

theorem QueueHistory.Ordered.call {stage : Stage α} {run : QueueHistory α}
    (ordered : run.Ordered stage) (call : QueueCall α) : (run.call stage call).Ordered stage := by
  cases call with
  | enqueue task =>
    exact ⟨pairwise_insertTask stage task ordered.sorted,
      ((insertTask_perm stage task _).append_right _).trans (ordered.accounted.cons task)⟩
  | popTask =>
    refine ⟨ordered.sorted.tail, ?_⟩
    have kept := ordered.accounted
    simp only [QueueHistory.call, StageTasks.popTask, StageTasks.peekTask]
    cases found : run.tasks.waitingTasks with
    | nil => simpa [found] using kept
    | cons task rest =>
      rw [found] at kept
      exact List.perm_middle.trans kept

/-- After any calls the queue is sorted by priority and task id and holds exactly the tasks
enqueued and not yet popped, and the task it hands out next is the least of them. -/
theorem stage_queue_sorted (stage : Stage α) (calls : List (QueueCall α)) :
    ∃ run : QueueHistory α, run = calls.foldl (QueueHistory.call stage) {} ∧
      run.tasks.waitingTasks.Pairwise (stage.sortKey · ≤ stage.sortKey ·) ∧
      (run.tasks.waitingTasks ++ run.popped).Perm run.enqueued ∧
      (run.tasks.peekTask = none ↔ run.tasks.waitingTasks = []) ∧
      ∀ task, run.tasks.peekTask = some task →
        task ∈ run.tasks.waitingTasks ∧
          ∀ other ∈ run.tasks.waitingTasks, stage.sortKey task ≤ stage.sortKey other := by
  have ordered : (calls.foldl (QueueHistory.call stage) {}).Ordered stage := by
    refine List.foldlRecOn calls _ ⟨List.Pairwise.nil, List.Perm.refl _⟩ ?_
    exact fun run kept call _ => kept.call call
  refine ⟨_, rfl, ordered.sorted, ordered.accounted, List.head?_eq_none_iff, ?_⟩
  intro task next
  have member := List.mem_of_mem_head? next
  refine ⟨member, ?_⟩
  intro other waiting
  obtain ⟨rest, queue⟩ := List.head?_eq_some_iff.mp next
  have sorted := ordered.sorted
  rw [queue] at sorted waiting
  cases List.mem_cons.mp waiting with
  | inl same => exact same ▸ le_refl _
  | inr later => exact (List.pairwise_cons.mp sorted).1 other later

end Queue

/-! ## Operators of the runs on fixed inputs -/

def passOp (α : Type) : TupleOp α where
  call := .keepGoing
  estimateTokens := fun _ _ => 1
  retries_finite := ⟨fun _ => ⟨_, by simp⟩⟩

/-- A product with a right table of `width` rows, whose children carry no pin. -/
def productOp (α : Type) (width : Nat) : JoinOp α where
  call := fun ctx => List.replicate width { ctx with pinReqId := none }
  indexed := none

def pinOp (α : Type) (request : RequestId) : TupleOp α where
  call := fun ctx => .keepGoing { ctx with pinReqId := some request }
  estimateTokens := fun _ _ => 1
  retries_finite := ⟨fun _ => ⟨_, by simp⟩⟩

end Kalypso.Query
