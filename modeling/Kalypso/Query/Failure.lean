import Kalypso.Query.Accounting

/-!
# A task that raises

The exception of a task leaves `execute_tasks` as soon as its future is taken up, after the
release of the task's own budget.  Whatever else is reserved at that moment stays reserved: the
other futures keep running, and no tracker will be told of its children any more.
-/

set_option autoImplicit false

namespace Kalypso.Query

open Kalypso.Lib

variable {α : Type}

/-- The next step takes up the future of `task`, which has raised. -/
structure TakesUpFailure (stages : List (Stage α)) (choice : Choice) (m : Machine α)
    (task : Task α) : Prop where
  next : (m.exec.control = .afterLaunch ∧
      (doneFutures choice m.exec.active).head? = some task.taskId) ∨
    ∃ done, m.exec.control = .completing (task.taskId :: done) []
  found : m.exec.active.find? (fun other => other.taskId = task.taskId) = some task
  raised : ∃ stage, stages[task.stageIndex]? = some stage ∧ stage.runTask task = .raised

/-- The counters of the stages are those of `kv`, and no task is running. -/
structure Machine.Restored (stages : List (Stage α)) (kv : KVMemoryManager) (m : Machine α) :
    Prop where
  used : ∀ stage ∈ stages, m.kv.used stage.stageId = kv.used stage.stageId
  inflight : ∀ stage ∈ stages, m.kv.inflight stage.stageId = kv.inflight stage.stageId
  idle : m.exec.active = []

section Failure

variable {stages : List (Stage α)} {m : Machine α} {task : Task α} {choice : Choice}

/-! ## From the future to the exception -/

theorem step_takesUp (fails : TakesUpFailure stages choice m task) :
    ∃ done, step stages choice m = { m with exec := complete stages task.taskId done m.exec } := by
  cases fails.next with
  | inl waiting =>
    obtain ⟨control, first⟩ := waiting
    obtain ⟨done, isFirst⟩ := List.head?_eq_some_iff.mp first
    have running : m.exec.active.isEmpty = false := by
      rw [List.isEmpty_eq_false_iff_exists_mem]
      exact ⟨task, List.mem_of_find?_eq_some fails.found⟩
    refine ⟨done, ?_⟩
    simp [step, control, running, waitFirstCompleted, isFirst]
  | inr taken =>
    obtain ⟨done, control⟩ := taken
    refine ⟨done, ?_⟩
    simp [step, control]

/-- Taking up the future leaves two statements to execute: the release and the exception. -/
theorem complete_raised (aligned : m.exec.tasks.length = stages.length)
    (fails : TakesUpFailure stages choice m task) (done : List TaskId) :
    ∃ tasks reservation, (∃ stage ∈ stages, stage.stageId = reservation.stageId) ∧
      complete stages task.taskId done m.exec =
        { m.exec.detach task tasks with
          control := .completing done [.release reservation none, .raise] } := by
  obtain ⟨stage, found, raised⟩ := fails.raised
  have bound : task.stageIndex < m.exec.tasks.length := by
    rw [aligned]
    exact (List.getElem?_eq_some_iff.mp found).1
  have present := List.getElem?_eq_getElem bound
  refine ⟨(m.exec.tasks[task.stageIndex].detachBudget task.taskId).2,
    ⟨task.taskId, stage.stageId, (m.exec.tasks[task.stageIndex].detachBudget task.taskId).1⟩,
    ⟨stage, List.mem_of_getElem? found, rfl⟩, ?_⟩
  simp only [complete, fails.found, found, present, raised, onResult]

/-- Three steps after the future is taken up the exception has left, with one task less running
and the trackers as they were. -/
theorem three_steps (layout : Layout stages m.kv m.exec)
    (fails : TakesUpFailure stages choice m task) (second third : Choice) :
    (step stages third (step stages second (step stages choice m))).exec.control =
        .raised .taskException ∧
      (step stages third (step stages second (step stages choice m))).exec.active =
        m.exec.active.eraseP (fun other => other.taskId = task.taskId) ∧
      (step stages third (step stages second (step stages choice m))).exec.trackers =
        m.exec.trackers := by
  obtain ⟨done, first⟩ := step_takesUp fails
  obtain ⟨tasks, reservation, ⟨stage, member, sameId⟩, completed⟩ :=
    complete_raised layout.aligned fails done
  obtain ⟨kv, released, -, -⟩ := m.kv.releaseStage_spec reservation.stageId reservation.budget
    (sameId ▸ layout.registered stage member)
  rw [first, completed]
  simp [step, perform, released, ExecState.detach]

/-! ## From the exception back to the future -/

theorem raised_of_onResult {s : ExecState α} {stage : Stage α} {budget : Int}
    {result : TaskResult α}
    (raises : scriptRaises (onResult s stage task budget result).2 = true) : result = .raised := by
  cases result with
  | raised => rfl
  | retry ctx opIndex retainBudget =>
    cases retainBudget <;> simp [onResult, onRetry] at raises
  | dropped => simp [onResult, onDrop, script_finalizeTask] at raises
  | finished ctx =>
    cases fanoutOp : stage.fanoutOp with
    | none => simp [onResult, fanoutOp, onAdvance, script_deliver] at raises
    | some op =>
      cases childCtxs : op.call ctx with
      | nil =>
        cases pin : ctx.pinReqId <;>
          simp [onResult, fanoutOp, childCtxs, onEmptyFanout, pin, script_finalizeTask] at raises
      | cons child rest =>
        cases pin : ctx.pinReqId with
        | none =>
          simp [onResult, fanoutOp, childCtxs, pin, onPlainFanout, script_deliver] at raises
        | some request =>
          simp [onResult, fanoutOp, childCtxs, pin, onPinnedFanout, script_deliver] at raises

/-- The step after which an exception is on its way out has taken up a future that had raised. -/
theorem takesUp_of_failing (valid : m.Valid stages) (calm : m.exec.control.failing = false)
    (failing : (step stages choice m).exec.control.failing = true) :
    ∃ task, TakesUpFailure stages choice m task := by
  have happens := valid.step_case choice
  generalize step stages choice m = m' at happens failing
  cases happens with
  | moves control passes | starts control passes => cases passes.idle.2.2.symm.trans failing
  | @completes task stage tasks budget done branch next isFirst detached result =>
    subst result
    refine ⟨task, ?_, isFirst, stage, detached.found, raised_of_onResult failing⟩
    rcases next with ⟨control, futures⟩ | control
    · exact .inl ⟨control, by rw [futures]; rfl⟩
    · exact .inr ⟨done, control⟩
  | @performs done action script control =>
    rw [control, Control.failing_completing] at calm
    obtain ⟨-, -, ⟨rfl, -, -⟩ | ⟨other, added, quiet, completing⟩⟩ :=
      perform_spec choice valid.layout control
    · cases calm
    · rw [completing, Control.failing_completing, scriptRaises_append, quiet] at failing
      cases action with
      | raise => exact absurd rfl other
      | _ => cases calm.symm.trans failing
  | rests => cases calm.symm.trans failing

end Failure

/-! ## Runs -/

section Run

variable {stages : List (Stage α)} {choices : Nat → Choice} {m : Machine α}

theorem run_of_raised {i : Nat} {error : ExecError}
    (raised : (run stages choices m i).exec.control = .raised error) :
    ∀ j, i ≤ j → run stages choices m j = run stages choices m i := by
  intro j later
  induction j, later using Nat.le_induction with
  | base => rfl
  | succ j _ ih =>
    rw [run, ih]
    simp [step, raised]

theorem exists_first_failing (calm : m.exec.control.failing = false) :
    ∀ n, (run stages choices m n).exec.control.failing = true →
      ∃ k < n, (run stages choices m k).exec.control.failing = false ∧
        (run stages choices m (k + 1)).exec.control.failing = true := by
  intro n
  induction n with
  | zero =>
    intro failing
    simp [run, calm] at failing
  | succ n ih =>
    intro failing
    cases before : (run stages choices m n).exec.control.failing with
    | true =>
      obtain ⟨k, earlier, atK, atNext⟩ := ih before
      exact ⟨k, by omega, atK, atNext⟩
    | false => exact ⟨n, by omega, before, failing⟩

variable {kv : KVMemoryManager} {exec : ExecState α} {on : StageId → Prop} {least : Int}

theorem SegmentOk.run (ok : SegmentOk on least kv stages exec) (choices : Nat → Choice) (n : Nat) :
    SegmentOk on least (Query.run stages choices ⟨kv, exec⟩ n).kv stages
      (Query.run stages choices ⟨kv, exec⟩ n).exec := by
  induction n with
  | zero => exact ok
  | succ n ih => exact ih.step (choices n)

/-- The counters are those of the entry and what the call has reserved since. -/
theorem run_follows {c : Counter} {s : StageId} (ok : SegmentOk on least kv stages exec)
    (light : ∀ r : Reservation, least ≤ r.budget → c.Light r) (nonneg : 0 ≤ c.read kv s)
    (nothing : (exec.view stages).outstanding = 0) (choices : Nat → Choice) (n : Nat) :
    c.read (Query.run stages choices ⟨kv, exec⟩ n).kv s = c.read kv s +
      c.total s ((Query.run stages choices ⟨kv, exec⟩ n).exec.view stages).outstanding := by
  induction n with
  | zero =>
    simp only [Query.run, nothing]
    simp [Counter.total]
  | succ n ih =>
    have before := ok.run choices n
    have transfer := (before.valid.refines (choices n)).1.transfer
    exact transfer.follows (fun r member => light r (before.budgets r member)) nonneg ih

end Run

/-! ## What is still reserved -/

section Reserved

variable {stages : List (Stage α)} {m : Machine α}

theorem one_le_inflight_total {r : Reservation} {reservations : Multiset Reservation}
    (light : ∀ r ∈ reservations, inflightCount.Light r) (member : r ∈ reservations) :
    1 ≤ inflightCount.total r.stageId reservations := by
  obtain ⟨rest, split⟩ := Multiset.exists_cons_of_mem member
  have nonneg : 0 ≤ inflightCount.total r.stageId rest := by
    apply Counter.total_nonneg
    intro other present
    exact light other (split ▸ Multiset.mem_cons_of_mem present)
  have weight : inflightCount.weight r = 1 := rfl
  rw [split, Counter.total_cons, if_pos rfl, weight]
  omega

theorem mem_outstanding_of_unfired {tracker : JoinTracker} (member : tracker ∈ m.exec.trackers)
    (pending : 0 < tracker.pendingChildren) :
    tracker.reservation ∈ (m.exec.view stages).outstanding := by
  apply Multiset.mem_add.mpr
  right
  refine (mem_sum_map _ _ _).mpr ⟨tracker, member, ?_⟩
  rw [JoinTracker.unfired, if_pos pending]
  exact Multiset.mem_singleton_self _

/-- After an exception the counters are restored if no task runs and every tracker has fired. -/
theorem restored_iff {kv : KVMemoryManager} {on : StageId → Prop} {error : ExecError}
    (ok : SegmentOk on 1 m.kv stages m.exec) (raised : m.exec.control = .raised error)
    (used : ∀ s, m.kv.used s = kv.used s + usedBytes.total s (m.exec.view stages).outstanding)
    (inflight : ∀ s, m.kv.inflight s =
      kv.inflight s + inflightCount.total s (m.exec.view stages).outstanding) :
    m.Restored stages kv ↔
      m.exec.active = [] ∧ ∀ tracker ∈ m.exec.trackers, tracker.pendingChildren ≤ 0 := by
  have layout := ok.valid.layout
  constructor
  · intro restored
    refine ⟨restored.idle, ?_⟩
    intro tracker member
    by_contra pending
    obtain ⟨stage, isStage, sameId⟩ := layout.trackers tracker member
    have light : ∀ r ∈ (m.exec.view stages).outstanding, inflightCount.Light r :=
      fun r present => light_inflightCount (lt_of_lt_of_le Int.one_pos (ok.budgets r present))
    -- the reservation of the tracker is still counted on its stage
    have counted : 1 ≤ inflightCount.total stage.stageId (m.exec.view stages).outstanding := by
      rw [sameId]
      exact one_le_inflight_total light (mem_outstanding_of_unfired member (not_le.mp pending))
    have same := restored.inflight stage isStage
    rw [inflight] at same
    omega
  · rintro ⟨idle, fired⟩
    have nothing := outstanding_of_idle layout idle (by simp [ExecState.view, raised]) fired
    refine ⟨?_, ?_, idle⟩
    · intro stage _
      rw [used, nothing]
      simp [Counter.total]
    · intro stage _
      rw [inflight, nothing]
      simp [Counter.total]

end Reserved

theorem eraseP_eq_nil_iff {active : List (Task α)} {task : Task α}
    (found : active.find? (fun other => other.taskId = task.taskId) = some task) :
    active.eraseP (fun other => other.taskId = task.taskId) = [] ↔ active = [task] := by
  constructor
  · intro erased
    have member := List.mem_of_find?_eq_some found
    have length := List.length_eraseP_of_mem (p := fun other => other.taskId = task.taskId) member
      (by simp)
    have positive := List.length_pos_of_mem member
    rw [erased, List.length_nil] at length
    obtain ⟨only, isOnly⟩ := List.length_eq_one_iff.mp (show active.length = 1 by omega)
    rw [isOnly, List.mem_singleton] at member
    rw [isOnly, member]
  · intro isOnly
    simp [isOnly]

/-- When an exception has left, the counters of the stages are back to their values at the entry and
no task is running if and only if, when the failed future was taken up, no other task was running
and no tracker had a child to wait for. -/
theorem failure_restores_iff {stages : List (Stage α)} {kv : KVMemoryManager}
    (ready : ∀ stage ∈ stages, stage.Ready (fun _ => True) 1 kv)
    (nonneg : ∀ s, 0 ≤ kv.used s ∧ 0 ≤ kv.inflight s) (firstTaskId : TaskId)
    (ctxs : List (SemContext α)) (choices : Nat → Choice) (n : Nat)
    (raised : (run stages choices ⟨kv, enter stages firstTaskId ctxs⟩ n).exec.control =
      .raised .taskException) :
    ∃ k < n, ∃ task,
      TakesUpFailure stages (choices k) (run stages choices ⟨kv, enter stages firstTaskId ctxs⟩ k)
          task ∧
        ((run stages choices ⟨kv, enter stages firstTaskId ctxs⟩ n).Restored stages kv ↔
          (run stages choices ⟨kv, enter stages firstTaskId ctxs⟩ k).exec.active = [task] ∧
            ∀ tracker ∈ (run stages choices ⟨kv, enter stages firstTaskId ctxs⟩ k).exec.trackers,
              tracker.pendingChildren ≤ 0) := by
  obtain ⟨entryOk, nothing⟩ := enter_ok ready firstTaskId ctxs
  have calm : (⟨kv, enter stages firstTaskId ctxs⟩ : Machine α).exec.control.failing = false := by
    rw [enter_control]
    rfl
  obtain ⟨k, earlier, before, after⟩ := exists_first_failing calm n (by rw [raised]; rfl)
  have okBefore := entryOk.run choices k
  obtain ⟨task, fails⟩ := takesUp_of_failing okBefore.valid before after
  refine ⟨k, earlier, task, fails, ?_⟩
  obtain ⟨control, active, trackers⟩ :=
    three_steps okBefore.valid.layout fails (choices (k + 1)) (choices (k + 2))
  have left : (run stages choices ⟨kv, enter stages firstTaskId ctxs⟩ (k + 3)).exec.control =
      .raised .taskException := control
  -- both states after the exception are the same one
  have same : run stages choices ⟨kv, enter stages firstTaskId ctxs⟩ n =
      run stages choices ⟨kv, enter stages firstTaskId ctxs⟩ (k + 3) := by
    cases Nat.le_total n (k + 3) with
    | inl sooner => exact (run_of_raised raised (k + 3) sooner).symm
    | inr later => exact run_of_raised left n later
  rw [same, restored_iff (entryOk.run choices (k + 3)) left]
  · rw [← eraseP_eq_nil_iff fails.found, ← active, ← trackers]
    rfl
  · intro s
    exact run_follows entryOk (fun r budget => light_usedBytes (by omega)) (nonneg s).1 nothing
      choices (k + 3)
  · intro s
    exact run_follows entryOk (fun r budget => light_inflightCount (by omega)) (nonneg s).2 nothing
      choices (k + 3)

/-! ## Another task is running -/

/-- An operator that raises on the tuples that hold `true`. -/
def raiseOp : TupleOp Bool where
  call := fun ctx => if ctx.data then .raise else .keepGoing ctx
  estimateTokens := fun _ _ => 1
  retries_finite := ⟨fun earlier => ⟨_, by
    intro later retries
    split at retries <;> cases retries⟩⟩

def raiseStage : Stage Bool := stageBuilder .threeStages [raiseOp] 1 0

def raiseRun (data : List Bool) (n : Nat) : Machine Bool :=
  run [raiseStage] (fun _ => oldestFirst)
    ⟨.threeStages, enter [raiseStage] 0 (data.map fun value => ⟨value, none⟩)⟩ n

def Control.hasRaised : Control α → Bool
  | .raised .taskException => true
  | _ => false

theorem Control.eq_of_hasRaised {control : Control α} (hasRaised : control.hasRaised = true) :
    control = .raised .taskException := by
  unfold Control.hasRaised at hasRaised
  split at hasRaised
  · rfl
  · cases hasRaised

/-- The first of two tasks raises while the second is running, and the second keeps its byte. -/
theorem failure_leaves_reservation :
    (raiseRun [true, false] 12).exec.control = .raised .taskException ∧
      KVMemoryManager.threeStages.used 1 = 0 ∧ (raiseRun [true, false] 12).kv.used 1 = 1 ∧
      KVMemoryManager.threeStages.inflight 1 = 0 ∧ (raiseRun [true, false] 12).kv.inflight 1 = 1 ∧
      (raiseRun [true, false] 12).exec.active.length = 1 := by
  refine ⟨Control.eq_of_hasRaised ?_, ?_, ?_, ?_, ?_, ?_⟩ <;> decide +kernel

theorem raiseStage_ready : ∀ stage ∈ [raiseStage], stage.Ready (fun _ => True) 1 .threeStages := by
  intro stage member
  rw [List.mem_singleton.mp member]
  refine ⟨trivial, by decide +kernel, List.cons_ne_nil _ _, ?_⟩
  refine raiseStage.reservesAtLeast 1 ?_
  intro op isOp ratios ctx
  rw [List.mem_singleton.mp isOp]
  exact Nat.le_refl 1

theorem threeStages_nonneg (s : StageId) :
    0 ≤ KVMemoryManager.threeStages.used s ∧ 0 ≤ KVMemoryManager.threeStages.inflight s := by
  have registered : ∀ (kv : KVMemoryManager) (stageId : StageId),
      0 ≤ kv.used s ∧ 0 ≤ kv.inflight s →
        0 ≤ (kv.registerStage stageId 1 none none none).used s ∧
          0 ≤ (kv.registerStage stageId 1 none none none).inflight s := by
    intro kv stageId before
    have resets := kv.registerStage_resets stageId 1 none none none
    rw [resets.used, resets.inflight]
    split
    · exact ⟨le_refl 0, le_refl 0⟩
    · exact before
  exact registered _ 3 (registered _ 2 (registered _ 1 ⟨le_refl 0, le_refl 0⟩))

/-- The only task of a call raises. -/
theorem failure_restores_single :
    ∃ k < 12, ∃ task,
      TakesUpFailure [raiseStage] oldestFirst (raiseRun [true] k) task ∧
        ((raiseRun [true] 12).Restored [raiseStage] .threeStages ↔
          (raiseRun [true] k).exec.active = [task] ∧
            ∀ tracker ∈ (raiseRun [true] k).exec.trackers, tracker.pendingChildren ≤ 0) :=
  failure_restores_iff raiseStage_ready threeStages_nonneg 0 [⟨true, none⟩]
    (fun _ => oldestFirst) 12
    (Control.eq_of_hasRaised (by decide +kernel))

end Kalypso.Query
