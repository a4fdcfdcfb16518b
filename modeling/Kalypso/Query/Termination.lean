import Mathlib.Logic.Hydra
import Kalypso.Query.Runs

/-!
# The event loop stops

A completed task is replaced by tasks at later positions, and an emitted one by none: the
multiset of live positions goes down in the multiset order over `Later`, which is
well-founded because an operator asks for finitely many retries of one tuple.  Between two
such steps the loop starts tasks or moves on to its next control point, and a number goes
down.  So every run reaches a state in which it has returned or raised, whatever completes
first and whatever is admitted.
-/

set_option autoImplicit false

namespace Kalypso.Query

open Kalypso.Lib
open ExecState

variable {α : Type}

/-! ## Later positions -/

inductive Later (stages : List (Stage α)) : Position α → Position α → Prop
  | stage {p q : Position α} (next : p.stageIndex < q.stageIndex)
      (bound : q.stageIndex ≤ stages.length) : Later stages q p
  | operator {p q : Position α} (stage : Stage α) (found : stages[p.stageIndex]? = some stage)
      (same : q.stageIndex = p.stageIndex) (next : p.opIndex < q.opIndex)
      (bound : q.opIndex < stage.operators.length) : Later stages q p
  | retry {p q : Position α} (stage : Stage α) (op : TupleOp α)
      (found : stages[p.stageIndex]? = some stage)
      (foundOp : stage.operators[p.opIndex]? = some op)
      (same : q.stageIndex = p.stageIndex) (sameOp : q.opIndex = p.opIndex)
      (again : op.call p.ctx = .retry q.ctx) : Later stages q p

section Later

variable {stages : List (Stage α)}

/-- Within one operator the retries are well-founded; the operators after it are given. -/
theorem acc_of_operator {stage : Stage α} {stageIndex opIndex : Nat}
    (found : stages[stageIndex]? = some stage)
    (laterStages : ∀ q : Position α, stageIndex < q.stageIndex → q.stageIndex ≤ stages.length →
      Acc (Later stages) q)
    (laterOps : ∀ q : Position α, q.stageIndex = stageIndex → opIndex < q.opIndex →
      q.opIndex < stage.operators.length → Acc (Later stages) q) (ctx : SemContext α) :
    Acc (Later stages) ⟨ctx, stageIndex, opIndex⟩ := by
  have step : ∀ ctx, (∀ op ctx', stage.operators[opIndex]? = some op →
      op.call ctx = .retry ctx' → Acc (Later stages) ⟨ctx', stageIndex, opIndex⟩) →
        Acc (Later stages) ⟨ctx, stageIndex, opIndex⟩ := by
    intro ctx retried
    constructor
    intro q later
    cases later with
    | stage next bound => exact laterStages q next bound
    | operator other atStage same next bound =>
      rw [found] at atStage
      cases atStage
      exact laterOps q same next bound
    | retry other op atStage foundOp same sameOp again =>
      rw [found] at atStage
      cases atStage
      obtain ⟨ctx', qStage, qOp⟩ := q
      cases same
      cases sameOp
      exact retried op ctx' foundOp again
  cases atOp : stage.operators[opIndex]? with
  | none =>
    apply step
    intro op ctx' foundOp
    rw [atOp] at foundOp
    cases foundOp
  | some op =>
    induction ctx using op.retries_finite.induction with
    | _ ctx ih =>
      apply step
      intro other ctx' foundOp again
      rw [atOp] at foundOp
      cases foundOp
      exact ih ctx' again

theorem later_wellFounded (stages : List (Stage α)) : WellFounded (Later stages) := by
  have byStage : ∀ a (p : Position α), stages.length - p.stageIndex = a →
      Acc (Later stages) p := by
    intro a
    induction a using Nat.strong_induction_on with
    | _ a ihStage =>
      intro p measure
      have laterStages : ∀ q : Position α, p.stageIndex < q.stageIndex →
          q.stageIndex ≤ stages.length → Acc (Later stages) q := by
        intro q next bound
        exact ihStage (stages.length - q.stageIndex) (by omega) q rfl
      cases found : stages[p.stageIndex]? with
      | none =>
        constructor
        intro q later
        cases later with
        | stage next bound => exact laterStages q next bound
        | operator other atStage same next bound
        | retry other op atStage foundOp same sameOp again =>
          rw [found] at atStage
          cases atStage
      | some stage =>
        have byOperator : ∀ b (q : Position α), q.stageIndex = p.stageIndex →
            stage.operators.length - q.opIndex = b → Acc (Later stages) q := by
          intro b
          induction b using Nat.strong_induction_on with
          | _ b ihOp =>
            intro q same measureOp
            obtain ⟨ctx, qStage, qOp⟩ := q
            cases same
            apply acc_of_operator found laterStages
            intro r sameStage next bound
            dsimp only at measureOp
            exact ihOp (stage.operators.length - r.opIndex) (by omega) r sameStage rfl
        exact byOperator _ p rfl rfl
  exact ⟨fun p => byStage _ p rfl⟩

theorem successors_later {stage : Stage α} {p : Position α} {positions : List (Position α)}
    (found : stages[p.stageIndex]? = some stage) (goes : stage.successors p = some positions) :
    ∀ q ∈ positions, Later stages q p := by
  intro q member
  unfold Stage.successors at goes
  split at goes
  · cases goes
  · rename_i ctx opIndex retainBudget result
    cases goes
    rw [List.mem_singleton.mp member]
    obtain ⟨-, j, op, earlier, rfl, atOp, again, first⟩ := Stage.runOperators_retry result
    rw [List.getElem?_drop] at atOp
    cases j with
    | zero => exact Later.retry stage op found atOp rfl rfl (first rfl ▸ again)
    | succ j =>
      refine Later.operator stage found rfl ?_ (List.getElem?_eq_some_iff.mp atOp).1
      dsimp only
      omega
  · cases goes
    cases member
  · cases goes
    obtain ⟨child, -, rfl⟩ := List.mem_map.mp member
    have bound := (List.getElem?_eq_some_iff.mp found).1
    exact Later.stage (Nat.lt_succ_self _) bound

end Later

/-! ## What goes down -/

def View.positions (v : View α) : Multiset (Position α) := v.live.map Task.position

/-- The number of signals and statements a script stands for: a finished child can make an
unpin and a release due. -/
def scriptWeight : List (Action α) → Nat
  | [] => 0
  | .childFinished _ :: script => 3 + scriptWeight script
  | _ :: script => 1 + scriptWeight script

/-- How far a control point is from the next completion, for `n` stages. -/
def Control.rank (n : Nat) : Control α → Nat
  | .returned => 0
  | .raised _ => 0
  | .forcing idx false => n - idx + 1
  | .afterLaunch => n + 2
  | .launching idx => n + 3 + (n - idx)
  | .loopHead => 2 * n + 4
  | .forcing idx true => 2 * n + 5 + (n - idx)
  | .completing done script => 2 * n + 5 + done.length + scriptWeight script

def ExecState.unstarted (stages : List (Stage α)) (s : ExecState α) : Nat :=
  (waitingTasks stages s.tasks).card + (scriptTasks s.control.script).length

def ExecState.rank (stages : List (Stage α)) (s : ExecState α) : Nat :=
  s.unstarted stages * (3 * stages.length + 6) + s.control.rank stages.length

def Shrinks (stages : List (Stage α)) (v v' : View α) : Prop :=
  Relation.CutExpand (Later stages) v'.positions v.positions

section Shrinks

variable {stages : List (Stage α)} {v v' : View α} {task : Task α} {live : Multiset (Task α)}

theorem shrinks_of_leave (leaves : v.live = task ::ₘ live) (liveEq : v'.live = live) :
    Shrinks stages v v' := by
  refine ⟨0, task.position, ?_, ?_⟩
  · intro p member
    cases Multiset.notMem_zero p member
  · rw [View.positions, View.positions, leaves, liveEq, Multiset.map_cons,
      ← Multiset.singleton_add, add_zero, add_comm]

theorem shrinks_of_spawn {stage : Stage α} (leaves : v.live = task ::ₘ live)
    (found : stages[task.stageIndex]? = some stage) {positions : List (Position α)}
    (goes : stage.successors task.position = some positions) {children : List (Task α)}
    (positionsEq : children.map Task.position = positions)
    (liveEq : v'.live = children + live) : Shrinks stages v v' := by
  refine ⟨positions, task.position, ?_, ?_⟩
  · intro p member
    exact successors_later found goes p (Multiset.mem_coe.mp member)
  · rw [View.positions, View.positions, leaves, liveEq, Multiset.map_cons, Multiset.map_add,
      Multiset.map_coe, positionsEq, ← Multiset.singleton_add]
    abel

/-- An effect keeps the live tasks or replaces one of them by later ones. -/
theorem Effect.shrinks {kv kv' : KVMemoryManager} (effect : Effect stages kv v kv' v') :
    v'.positions = v.positions ∨ Shrinks stages v v' := by
  cases effect with
  | silent => exact Or.inl rfl
  | start => exact Or.inl rfl
  | raise completes raised | drop completes ownPin dropped =>
    exact Or.inr (shrinks_of_leave completes.leaves rfl)
  | advance completes goes nonempty fresh | defer completes request goes nonempty fresh =>
    exact Or.inr (shrinks_of_spawn completes.leaves completes.found goes fresh.positions rfl)
  | emit task leaves final => exact Or.inr (shrinks_of_leave leaves rfl)
  | childFinished => exact Or.inl rfl
  | unpin => exact Or.inl rfl
  | release => exact Or.inl rfl

end Shrinks

/-! ## Every step makes progress -/

def Progress (stages : List (Stage α)) (m m' : Machine α) : Prop :=
  m'.exec.rank stages < m.exec.rank stages ∨
    Shrinks stages (m.exec.view stages) (m'.exec.view stages)

section Progress

variable {stages : List (Stage α)} {m : Machine α}

theorem progress_of_control (kv : KVMemoryManager) (control : Control α)
    (idle : m.exec.control.script = []) (idle' : control.script = [])
    (closer : control.rank stages.length < m.exec.control.rank stages.length) :
    Progress stages m ⟨kv, { m.exec with control := control }⟩ := by
  left
  simp only [rank, unstarted, idle, idle']
  omega

theorem progress_of_launch {idx : Nat} {stage : Stage α} {tasks : StageTasks α} {task : Task α}
    {rest : List (Task α)} (found : stages[idx]? = some stage)
    (present : m.exec.tasks[idx]? = some tasks) (head : tasks.waitingTasks = task :: rest)
    (budget : Int) (kv : KVMemoryManager) (started : Task α)
    (reservation : Option Reservation) (control : Control α)
    (idle : m.exec.control.script = []) (idle' : control.script = [])
    (closer : control.rank stages.length <
      m.exec.control.rank stages.length + (3 * stages.length + 6)) :
    Progress stages m (launch idx stage (tasks.startRunning task budget) started kv reservation
      { m.exec with control := control }) := by
  left
  have popped : (tasks.startRunning task budget).popTask =
      ⟨rest, tasks.runningTasks.set task.taskId budget⟩ := by
    simp [StageTasks.startRunning, StageTasks.popTask, head]
  have moved := waitingTasks_pop found present head
    (tasks.runningTasks.set task.taskId budget)
  have fewer := congrArg Multiset.card moved
  rw [Multiset.card_cons] at fewer
  simp only [rank, unstarted, launch, recordInput, popped, idle,
    idle', ← fewer, Nat.add_mul]
  omega

theorem MovesOn.rank_lt {before after : Control α} (passes : MovesOn stages m.exec before after) :
    after.rank stages.length < before.rank stages.length := by
  cases passes with
  | skipForced launched bound =>
    cases launched with
    | true | false =>
      simp only [Control.rank]
      omega
  | gone =>
    simp only [Control.rank, List.length_cons]
    omega
  | _ =>
    simp only [Control.rank]
    omega

theorem Launches.rank_lt {idx : Nat} {before after : Control α}
    (passes : Launches idx before after) :
    after.rank stages.length < before.rank stages.length + (3 * stages.length + 6) := by
  cases passes with
  | ready => omega
  | forced launched =>
    cases launched with
    | true | false =>
      simp only [Control.rank]
      omega

/-- The script of a branch holds the successors of the completed task. -/
theorem scriptTasks_onResult (s : ExecState α) (stage : Stage α) (task : Task α) (budget : Int) :
    ((scriptTasks (onResult s stage task budget (stage.runTask task)).2).map Task.position) =
      (stage.successors task.position).getD [] := by
  have goes := successors_position stage task
  have plain : ∀ childCtxs, (scriptTasks (onPlainFanout s stage task budget childCtxs).2).map
      Task.position = childCtxs.map fun child => ⟨child, task.stageIndex + 1, 0⟩ := by
    intro childCtxs
    simp only [onPlainFanout, scriptTasks_append, script_deliver, scriptTasks, List.append_nil]
    exact (newTasks_children s (task.stageIndex + 1) task.trackers childCtxs).positions
  cases result : stage.runTask task with
  | raised =>
    rw [result] at goes
    simp [goes, onResult]
  | retry ctx opIndex retainBudget =>
    rw [result] at goes
    have kept := (Stage.runOperators_retry result).1
    subst kept
    rw [goes]
    simp [onResult, onRetry, Task.position]
  | dropped =>
    rw [result] at goes
    simp [goes, onResult, onDrop, script_finalizeTask]
  | finished ctx =>
    rw [result] at goes
    rw [goes]
    cases fanoutOp : stage.fanoutOp with
    | none =>
      simp only [onResult, fanoutOp, Stage.fanout]
      exact plain [ctx]
    | some op =>
      cases childCtxs : op.call ctx with
      | nil =>
        cases pin : ctx.pinReqId with
        | none | some request =>
          simp [onResult, fanoutOp, childCtxs, onEmptyFanout, script_finalizeTask,
            Stage.fanout, pin]
      | cons child rest =>
        cases pin : ctx.pinReqId with
        | none =>
          simp only [onResult, fanoutOp, childCtxs, pin, Stage.fanout]
          exact plain (child :: rest)
        | some request =>
          simp only [onResult, fanoutOp, childCtxs, pin, Stage.fanout, onPinnedFanout,
            scriptTasks_append, script_deliver, scriptTasks, List.append_nil]
          exact (newTasks_children s (task.stageIndex + 1)
            (task.trackers ++ [s.trackers.length]) (child :: rest)).positions

variable {done : List TaskId} {script : List (Action α)} {action : Action α}

theorem completes_progress {task : Task α} {stage : Stage α} {tasks : StageTasks α} {budget : Int}
    (idle : m.exec.control.script = []) (detached : Detached stages m.exec task stage tasks budget)
    {branch : ExecState α × List (Action α)}
    (result : onResult (m.exec.detach task (tasks.detachBudget task.taskId).2) stage task budget
      (stage.runTask task) = branch) :
    Progress stages m
      { m with exec := { branch.1 with control := .completing done branch.2 } } := by
  right
  have successors := scriptTasks_onResult
    (m.exec.detach task (tasks.detachBudget task.taskId).2) stage task budget
  have ok : BranchOk stages (m.exec.detach task (tasks.detachBudget task.taskId).2) stage branch :=
    result ▸ onResult_ok (List.mem_of_getElem? detached.found)
      (List.getElem?_eq_some_iff.mp detached.found).1 _
  rw [result] at successors
  have leaves : (m.exec.view stages).live = task ::ₘ (view stages
      (m.exec.detach task (tasks.detachBudget task.taskId).2)).live := by
    rw [detached_view detached]
    rfl
  have detachedLive : (view stages
      (m.exec.detach task (tasks.detachBudget task.taskId).2)).live =
        waitingTasks stages (m.exec.detach task (tasks.detachBudget task.taskId).2).tasks +
          (m.exec.detach task (tasks.detachBudget task.taskId).2).active := by
    simp [view, detach, idle]
  cases goes : stage.successors task.position with
  | none =>
    rw [goes, Option.getD_none, List.map_eq_nil_iff] at successors
    apply shrinks_of_leave leaves
    simp only [view, ok.tasks, ok.active, successors, Control.script_completing,
      Multiset.coe_nil, add_zero]
    exact detachedLive.symm
  | some positions =>
    rw [goes, Option.getD_some] at successors
    apply shrinks_of_spawn leaves detached.found goes successors
    rw [detachedLive]
    simp only [view, ok.tasks, ok.active, Control.script_completing]
    exact add_comm _ _

theorem scriptWeight_append (first second : List (Action α)) :
    scriptWeight (first ++ second) = scriptWeight first + scriptWeight second := by
  induction first with
  | nil => simp [scriptWeight]
  | cons action first ih => cases action <;> simp [scriptWeight, ih, Nat.add_assoc]

theorem scriptWeight_childFinished (k : TrackerId) (s : ExecState α) :
    scriptWeight (childFinished k s).2 ≤ 2 := by
  unfold childFinished
  split
  · exact Nat.zero_le _
  · rename_i tracker found
    cases pin : tracker.parentPin with
    | none | some request =>
      dsimp only
      split
      · split <;> simp [scriptWeight]
      · simp [scriptWeight]

/-- The head of a script is done and the tasks of the state stay the same. -/
theorem progress_of_script (control : m.exec.control = .completing done (action :: script))
    (m' : Machine α) (script' : List (Action α)) (tasksEq : m'.exec.tasks = m.exec.tasks)
    (control' : m'.exec.control = .completing done script')
    (sameTasks : scriptTasks script' = scriptTasks (action :: script))
    (lighter : scriptWeight script' < scriptWeight (action :: script)) : Progress stages m m' := by
  left
  simp only [rank, unstarted, tasksEq, control, control',
    Control.script_completing, sameTasks, Control.rank]
  omega

theorem enqueue_progress {task : Task α} (layout : Layout stages m.kv m.exec)
    (bound : task.stageIndex < stages.length)
    (control : m.exec.control = .completing done (action :: script))
    (tasksEq : scriptTasks (action :: script) = task :: scriptTasks script)
    (lighter : scriptWeight script < scriptWeight (action :: script)) :
    Progress stages m { m with exec :=
      { enqueueTask stages task m.exec with control := .completing done script } } := by
  left
  obtain ⟨-, waits, -⟩ := enqueueTask_layout layout bound
  have moved : unstarted stages
      { enqueueTask stages task m.exec with control := .completing done script } =
        m.exec.unstarted stages := by
    simp only [unstarted, waits, control, Control.script_completing, tasksEq,
      Multiset.card_cons, List.length_cons]
    omega
  simp only [rank, moved, control, Control.rank]
  omega

theorem perform_progress (choice : Choice) (layout : Layout stages m.kv m.exec)
    (control : m.exec.control = .completing done (action :: script)) :
    Progress stages m (perform stages choice done script m action) := by
  have scriptOk := layout.script
  simp only [control, Control.script_completing] at scriptOk
  obtain ⟨ok, -⟩ := scriptOk
  cases action with
  | enqueue task =>
    exact enqueue_progress layout ok control rfl (by simp [scriptWeight])
  | deliver task =>
    by_cases final : stages.length ≤ task.stageIndex
    · right
      have leaves : (m.exec.view stages).live = task ::ₘ
          (waitingTasks stages m.exec.tasks + (m.exec.active : Multiset (Task α)) +
            (scriptTasks script : Multiset (Task α))) := by
        simp [view, control, ← Multiset.cons_coe]
      apply shrinks_of_leave leaves
      simp [perform, final, view, script_finalizeTask]
    · simp only [perform, if_neg final]
      exact enqueue_progress layout (Nat.not_le.mp final) control rfl (by simp [scriptWeight])
  | release reservation tracker =>
    obtain ⟨stage, member, sameId⟩ := ok
    obtain ⟨kv', released, -, -⟩ := m.kv.releaseStage_spec reservation.stageId
      reservation.budget (sameId ▸ layout.registered stage member)
    simp only [perform, released]
    exact progress_of_script control _ script rfl rfl rfl (by simp [scriptWeight])
  | unpin request tracker | rebalance =>
    exact progress_of_script control _ script rfl rfl rfl (by simp [scriptWeight])
  | childFinished k =>
    have actions := scriptWeight_childFinished k m.exec
    have tasksEq : (childFinished k m.exec).1.tasks = m.exec.tasks := by
      unfold childFinished
      split
      · rfl
      · dsimp only
        split <;> rfl
    have noTasks : scriptTasks (childFinished k m.exec).2 = [] := by
      cases found : m.exec.trackers[k]? with
      | none => simp [childFinished, found]
      | some tracker => exact (childFinished_eq m.exec k tracker found).2.2.1
    refine progress_of_script control _ ((childFinished k m.exec).2 ++ script) tasksEq rfl ?_ ?_
    · simp [noTasks]
    · rw [scriptWeight_append, scriptWeight]
      omega
  | raise =>
    left
    simp only [perform, rank, unstarted, control,
      Control.script_completing, Control.script_raised, Control.rank, scriptTasks,
      List.length_nil, Nat.add_mul]
    omega

/-- A step from a state in which the loop is still running makes progress. -/
theorem step_progress (choice : Choice) (valid : m.Valid stages)
    (notReturned : m.exec.control ≠ .returned)
    (notRaised : ∀ error, m.exec.control ≠ .raised error) :
    Progress stages m (step stages choice m) := by
  have happens := valid.step_case choice
  generalize step stages choice m = m' at happens ⊢
  cases happens with
  | moves control passes =>
    subst control
    exact progress_of_control _ _ passes.idle.1.1 passes.idle.2.1 passes.rank_lt
  | starts control passes found present head =>
    subst control
    exact progress_of_launch found present head _ _ _ _ _ passes.idle.1.1 passes.idle.2.1
      passes.rank_lt
  | completes next isFirst detached result =>
    exact completes_progress next.idle.1 detached result
  | performs control => exact perform_progress choice valid.layout control
  | rests halted =>
    rcases halted with returned | ⟨error, raised⟩
    · exact absurd returned notReturned
    · exact absurd raised (notRaised error)

/-- Whatever is chosen, the loop returns or raises after finitely many steps. -/
theorem run_halts (valid : m.Valid stages) (choices : Nat → Choice) :
    ∃ n, (run stages choices m n).exec.control = .returned ∨
      ∃ error, (run stages choices m n).exec.control = .raised error := by
  by_contra running
  push Not at running
  have wellFounded := WellFounded.prod_lex (later_wellFounded stages).cutExpand
    (wellFounded_lt : WellFounded fun a b : Nat => a < b)
  have descends : ∀ n, Prod.Lex (Relation.CutExpand (Later stages)) (fun a b : Nat => a < b)
      (((run stages choices m (n + 1)).exec.view stages).positions,
        (run stages choices m (n + 1)).exec.rank stages)
      (((run stages choices m n).exec.view stages).positions,
        (run stages choices m n).exec.rank stages) := by
    intro n
    have valid' := valid.run choices n
    have effect := (valid'.refines (choices n)).1
    rw [Prod.lex_def]
    rcases step_progress (choices n) valid' (running n).1 (running n).2 with lower | shrinks
    · rcases effect.shrinks with same | shrinks
      · exact Or.inr ⟨same, lower⟩
      · exact Or.inl shrinks
    · exact Or.inl shrinks
  have isWellFounded : IsWellFounded _ _ := ⟨wellFounded⟩
  obtain ⟨n, stuck⟩ := @WellFounded.not_rel_apply_succ _ _ isWellFounded fun n =>
    (((run stages choices m n).exec.view stages).positions,
      (run stages choices m n).exec.rank stages)
  exact stuck (descends n)

end Progress

end Kalypso.Query
