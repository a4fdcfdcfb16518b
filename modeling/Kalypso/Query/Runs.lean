import Kalypso.Query.Refinement

/-!
# Runs of the event loop

What a step of the loop does in a state that meets the invariants (`StepCase`).  The loop
returns only when nothing is left to do, the error for stuck queues is unreachable, and no
registered stage is missing; every step is one `Effect` on the view (`StepCase.refines`), and an
invariant that every effect keeps holds throughout a run (`run_invariant`).
-/

set_option autoImplicit false

namespace Kalypso.Query

open Kalypso.Lib

variable {α : Type}

/-- A forced pass that has launched nothing has a non-empty queue ahead; the loop returns only
when nothing is left to do; and it raises only what a task has raised. -/
def ExecState.ControlOk (s : ExecState α) : Prop :=
  match s.control with
  | .forcing idx false => ∃ (j : Nat) (tasks : StageTasks α),
      idx ≤ j ∧ s.tasks[j]? = some tasks ∧ tasks.waitingTasks ≠ []
  | .returned => s.active = [] ∧ s.hasPendingWork = false
  | .raised error => error = .taskException
  | _ => True

/-! ## What a step does -/

/-- The steps that only move the control point. -/
inductive MovesOn (stages : List (Stage α)) (s : ExecState α) : Control α → Control α → Prop where
  | enter : MovesOn stages s .loopHead (.launching 0)
  | finish (inactive : s.active = []) (nothing : s.hasPendingWork = false) :
      MovesOn stages s .loopHead .returned
  | skip {idx : Nat} (bound : idx < stages.length) :
      MovesOn stages s (.launching idx) (.launching (idx + 1))
  | allTried (idx : Nat) : MovesOn stages s (.launching idx) .afterLaunch
  | stuck (inactive : s.active = []) (pending : s.hasPendingWork = true) :
      MovesOn stages s .afterLaunch (.forcing 0 false)
  | drained (inactive : s.active = []) (nothing : s.hasPendingWork = false) :
      MovesOn stages s .afterLaunch .returned
  | skipForced {idx : Nat} {tasks : StageTasks α} (launched : Bool) (bound : idx < stages.length)
      (present : s.tasks[idx]? = some tasks) (empty : tasks.waitingTasks = []) :
      MovesOn stages s (.forcing idx launched) (.forcing (idx + 1) launched)
  | forced (idx : Nat) : MovesOn stages s (.forcing idx true) .loopHead
  | gone {next : TaskId} (done : List TaskId)
      (absent : s.active.find? (fun task => task.taskId = next) = none) :
      MovesOn stages s (.completing (next :: done) []) (.completing done [])
  | completed : MovesOn stages s (.completing [] []) .loopHead

/-- The control points around the start of a task of stage `idx`. -/
inductive Launches (idx : Nat) : Control α → Control α → Prop where
  | ready : Launches idx (.launching idx) (.launching idx)
  | forced (launched : Bool) : Launches idx (.forcing idx launched) (.forcing (idx + 1) true)

/-- The future that is taken up next, and those after it. -/
def TakesUp (choice : Choice) (s : ExecState α) (taskId : TaskId) (done : List TaskId) : Prop :=
  s.control = .afterLaunch ∧ doneFutures choice s.active = taskId :: done ∨
    s.control = .completing (taskId :: done) []

/-- Everything that a step can do. -/
inductive StepCase (stages : List (Stage α)) (choice : Choice) (m : Machine α) :
    Machine α → Prop where
  | moves {before after : Control α} {kv : KVMemoryManager} (control : m.exec.control = before)
      (passes : MovesOn stages m.exec before after)
      (same : kv = m.kv ∨ kv = rebalance choice m.kv) :
      StepCase stages choice m ⟨kv, { m.exec with control := after }⟩
  | starts {idx : Nat} {before after : Control α} {stage : Stage α} {tasks : StageTasks α}
      {task : Task α} {rest : List (Task α)} {kv : KVMemoryManager}
      (control : m.exec.control = before) (passes : Launches idx before after)
      (found : stages[idx]? = some stage) (present : m.exec.tasks[idx]? = some tasks)
      (head : tasks.waitingTasks = task :: rest)
      (reserves : m.kv.Reserves kv stage.stageId (stage.estimateBudget choice.ratios task))
      (grows : m.kv.Extends kv) :
      StepCase stages choice m
        (launch idx stage (tasks.startRunning task (stage.estimateBudget choice.ratios task)) task
          kv (some ⟨task.taskId, stage.stageId, stage.estimateBudget choice.ratios task⟩)
          { m.exec with control := after })
  | completes {task : Task α} {stage : Stage α} {tasks : StageTasks α} {budget : Int}
      {done : List TaskId} {branch : ExecState α × List (Action α)}
      (next : TakesUp choice m.exec task.taskId done)
      (isFirst : m.exec.active.find? (fun other => other.taskId = task.taskId) = some task)
      (detached : Detached stages m.exec task stage tasks budget)
      (result : onResult (m.exec.detach task (tasks.detachBudget task.taskId).2) stage task budget
        (stage.runTask task) = branch) :
      StepCase stages choice m
        { m with exec := { branch.1 with control := .completing done branch.2 } }
  | performs {done : List TaskId} {action : Action α} {script : List (Action α)}
      (control : m.exec.control = .completing done (action :: script)) :
      StepCase stages choice m (perform stages choice done script m action)
  | rests (halted : m.exec.control = .returned ∨ ∃ error, m.exec.control = .raised error) :
      StepCase stages choice m m

section StepCase

variable {stages : List (Stage α)} {choice : Choice} {m m' : Machine α}

theorem MovesOn.idle {s : ExecState α} {before after : Control α}
    (passes : MovesOn stages s before after) : (before.script = [] ∧ before.failing = false) ∧
      after.script = [] ∧ after.failing = false := by
  cases passes <;> exact ⟨⟨rfl, rfl⟩, rfl, rfl⟩

theorem Launches.idle {idx : Nat} {before after : Control α} (passes : Launches idx before after) :
    (before.script = [] ∧ before.failing = false) ∧ after.script = [] ∧ after.failing = false := by
  cases passes <;> exact ⟨⟨rfl, rfl⟩, rfl, rfl⟩

theorem TakesUp.idle {s : ExecState α} {taskId : TaskId} {done : List TaskId}
    (next : TakesUp choice s taskId done) :
    s.control.script = [] ∧ s.control.failing = false := by
  rcases next with ⟨control, -⟩ | control
  · rw [control]
    exact ⟨rfl, rfl⟩
  · rw [control]
    exact ⟨rfl, rfl⟩

theorem doneFutures_active {active : List (Task α)} {first : TaskId} {rest : List TaskId}
    (done : doneFutures choice active = first :: rest) :
    ∃ task ∈ active, task.taskId = first := by
  unfold doneFutures at done
  split at done
  · cases active with
    | nil => cases done
    | cons task active =>
      cases done
      exact ⟨task, List.mem_cons_self .., rfl⟩
  · have member : first ∈ (choice.done.filter fun id =>
        active.any fun task => task.taskId = id).dedup := by
      rw [done]
      exact List.mem_cons_self ..
    have isActive := (List.mem_filter.mp (List.mem_dedup.mp member)).2
    simpa using isActive

theorem doneFutures_ne_nil {active : List (Task α)} (some : active ≠ []) :
    doneFutures choice active ≠ [] := by
  unfold doneFutures
  split
  · cases active with
    | nil => exact absurd rfl some
    | cons task active => exact List.cons_ne_nil _ _
  · assumption

theorem runnable_of_forcing {idx : Nat} (layout : Layout stages m.kv m.exec)
    (control : m.exec.control = .forcing idx false) (ok : m.exec.ControlOk) :
    idx < stages.length := by
  simp only [ExecState.ControlOk, control] at ok
  obtain ⟨j, tasks, atLeast, atIndex, -⟩ := ok
  have bound := (List.getElem?_eq_some_iff.mp atIndex).1
  rw [layout.aligned] at bound
  omega

theorem launchReady_case {idx : Nat} (layout : Layout stages m.kv m.exec)
    (sound : (m.exec.view stages).Sound) (control : m.exec.control = .launching idx) :
    StepCase stages choice m (launchReady stages choice idx m) := by
  unfold launchReady
  split
  · rename_i stage tasks found present
    have bound := (List.getElem?_eq_some_iff.mp found).1
    split
    · exact .moves control (.skip bound) (.inl rfl)
    · rename_i task peek
      obtain ⟨rest, head⟩ := waitingTasks_of_peekTask peek
      have unreserved := unreserved_of_queued sound found present head
      rcases accept_spec m.kv tasks choice.ratios
          (layout.registered stage (List.mem_of_getElem? found)) unreserved
        with refused | ⟨kv', started, reserves, grows⟩
      · rw [refused]
        exact .moves control (.skip bound) (.inl rfl)
      · rw [started, newReservation_of_unreserved choice.ratios unreserved]
        exact .starts control .ready found present head reserves grows
  · exact .moves control (.allTried idx) (.inl rfl)

theorem launchForced_case {idx : Nat} {launched : Bool} (layout : Layout stages m.kv m.exec)
    (sound : (m.exec.view stages).Sound) (control : m.exec.control = .forcing idx launched)
    (ok : m.exec.ControlOk) :
    StepCase stages choice m (launchForced stages choice idx launched m) := by
  unfold launchForced
  split
  · rename_i stage tasks found present
    have bound := (List.getElem?_eq_some_iff.mp found).1
    split
    · rename_i empty
      exact .moves control (.skipForced launched bound present (List.head?_eq_none_iff.mp empty))
        (.inl rfl)
    · rename_i task peek
      obtain ⟨rest, head⟩ := waitingTasks_of_peekTask peek
      have unreserved := unreserved_of_queued sound found present head
      obtain ⟨kv', started, reserves, grows⟩ := forceAccept_spec m.kv tasks choice.ratios
        (layout.registered stage (List.mem_of_getElem? found)) unreserved
      rw [started, newReservation_of_unreserved choice.ratios unreserved]
      exact .starts control (.forced launched) found present head reserves grows
  · rename_i missing
    cases launched with
    | true => exact .moves control (.forced idx) (.inl rfl)
    | false =>
      obtain ⟨stage, tasks, found, present⟩ :=
        layout.stage_at (runnable_of_forcing layout control ok)
      exact absurd present (missing stage tasks found)

theorem complete_case {taskId : TaskId} {done : List TaskId} {task : Task α}
    (layout : Layout stages m.kv m.exec) (next : TakesUp choice m.exec taskId done)
    (isFirst : m.exec.active.find? (fun other => other.taskId = taskId) = some task) :
    StepCase stages choice m { m with exec := complete stages taskId done m.exec } := by
  have taskIdEq : task.taskId = taskId := by simpa using List.find?_some isFirst
  subst taskIdEq
  obtain ⟨stage, tasks, found, present⟩ :=
    layout.stage_at (layout.active task (List.mem_of_find?_eq_some isFirst))
  obtain ⟨budget, budgetEq, detached⟩ := detached_of_find? layout isFirst found present
  simp only [complete, isFirst, found, present, budgetEq]
  exact .completes next isFirst detached rfl

theorem step_case (choice : Choice) (layout : Layout stages m.kv m.exec)
    (sound : (m.exec.view stages).Sound) (ok : m.exec.ControlOk) :
    StepCase stages choice m (step stages choice m) := by
  unfold step
  split
  · rename_i control
    split
    · exact .moves control .enter (.inr rfl)
    · rename_i nothing
      rw [Bool.or_eq_true, not_or, Bool.not_eq_true, Bool.not_eq_true] at nothing
      exact .moves control (.finish (by simpa using nothing.2) nothing.1) (.inl rfl)
  · rename_i control
    exact launchReady_case layout sound control
  · rename_i control
    split
    · rename_i noActive
      have inactive := List.isEmpty_iff.mp noActive
      split
      · rename_i pending
        exact .moves control (.stuck inactive pending) (.inl rfl)
      · rename_i nothing
        exact .moves control (.drained inactive (Bool.not_eq_true _ ▸ nothing)) (.inl rfl)
    · rename_i someActive
      unfold waitFirstCompleted
      split
      · rename_i none
        exact absurd none (doneFutures_ne_nil (by simpa using someActive))
      · rename_i first rest done
        obtain ⟨task, member, same⟩ := doneFutures_active done
        have isSome : (m.exec.active.find? fun other => other.taskId = first).isSome :=
          List.find?_isSome.mpr ⟨task, member, decide_eq_true same⟩
        obtain ⟨_, isFirst⟩ := Option.isSome_iff_exists.mp isSome
        exact complete_case layout (.inl ⟨control, done⟩) isFirst
  · rename_i control
    exact launchForced_case layout sound control ok
  · rename_i next done control
    cases isFirst : m.exec.active.find? (fun task => task.taskId = next) with
    | none =>
      simp only [complete, isFirst]
      exact .moves control (.gone done isFirst) (.inl rfl)
    | some task => exact complete_case layout (.inr control) isFirst
  · rename_i control
    exact .moves control .completed (.inl rfl)
  · rename_i control
    exact .performs control
  · rename_i control
    exact .rests (.inl control)
  · rename_i error control
    exact .rests (.inr ⟨error, control⟩)

theorem active_childFinished (k : TrackerId) (s : ExecState α) :
    (childFinished k s).1.active = s.active := by
  unfold childFinished
  split
  · rfl
  · dsimp only
    split
    · rfl
    · rfl

/-- An action that does not raise goes on with the rest of its script, after what it adds. -/
theorem perform_spec (choice : Choice) {done : List TaskId} {action : Action α}
    {script : List (Action α)} (layout : Layout stages m.kv m.exec)
    (control : m.exec.control = .completing done (action :: script)) :
    (perform stages choice done script m action).exec.active = m.exec.active ∧
      m.kv.Extends (perform stages choice done script m action).kv ∧
      ((action = .raise ∧ script = [] ∧
          (perform stages choice done script m action).exec.control = .raised .taskException) ∨
        action ≠ .raise ∧ ∃ added, scriptRaises added = false ∧
          (perform stages choice done script m action).exec.control =
            .completing done (added ++ script)) := by
  have scriptOk := layout.script
  simp only [control, Control.script_completing] at scriptOk
  obtain ⟨ok, -⟩ := scriptOk
  have enqueue : ∀ task, (enqueueTask stages task m.exec).active = m.exec.active := by
    intro task
    obtain ⟨tasks, enqueued⟩ := enqueueTask_eq stages task m.exec
    rw [enqueued]
  cases action with
  | enqueue task => exact ⟨enqueue task, extends_refl _, .inr ⟨by simp, [], rfl, rfl⟩⟩
  | deliver task =>
    simp only [perform]
    split
    · exact ⟨rfl, extends_refl _, .inr ⟨by simp, _, (script_finalizeTask _).2.2.2, rfl⟩⟩
    · exact ⟨enqueue task, extends_refl _, .inr ⟨by simp, [], rfl, rfl⟩⟩
  | release reservation tracker =>
    obtain ⟨stage, member, sameId⟩ := ok
    obtain ⟨kv', released, -, grows⟩ := m.kv.releaseStage_spec reservation.stageId
      reservation.budget (sameId ▸ layout.registered stage member)
    simp only [perform, released]
    exact ⟨trivial, grows, .inr ⟨by simp, [], rfl, rfl⟩⟩
  | unpin request tracker => exact ⟨rfl, extends_refl _, .inr ⟨by simp, [], rfl, rfl⟩⟩
  | childFinished k =>
    have quiet : scriptRaises (childFinished k m.exec).2 = false := by
      cases found : m.exec.trackers[k]? with
      | none => simp [childFinished, found]
      | some tracker => exact (childFinished_eq m.exec k tracker found).2.2.2.2
    exact ⟨active_childFinished k m.exec, extends_refl _, .inr ⟨by simp, _, quiet, rfl⟩⟩
  | rebalance => exact ⟨rfl, rebalance_extends choice _, .inr ⟨by simp, [], rfl, rfl⟩⟩
  | raise => exact ⟨rfl, extends_refl _, .inl ⟨rfl, ok, rfl⟩⟩

/-! ## Every step is an effect -/

theorem MovesOn.controlOk {before after : Control α} (control : m.exec.control = before)
    (passes : MovesOn stages m.exec before after) (ok : m.exec.ControlOk) :
    ExecState.ControlOk { m.exec with control := after } := by
  cases passes with
  | finish inactive nothing | drained inactive nothing => exact ⟨inactive, nothing⟩
  | stuck _ pending =>
    obtain ⟨tasks, member, waits⟩ := List.any_eq_true.mp pending
    obtain ⟨j, atIndex⟩ := List.mem_iff_getElem?.mp member
    refine ⟨j, tasks, Nat.zero_le j, atIndex, ?_⟩
    simpa [StageTasks.hasWaitingTasks] using waits
  | @skipForced idx tasks launched bound present empty =>
    cases launched with
    | true => trivial
    | false =>
      simp only [ExecState.ControlOk, control] at ok
      obtain ⟨j, other, atLeast, atIndex, waiting⟩ := ok
      refine ⟨j, other, ?_, atIndex, waiting⟩
      have different : j ≠ idx := by
        intro same
        rw [same, present] at atIndex
        cases atIndex
        exact waiting empty
      omega
  | _ => trivial

theorem StepCase.controlOk (happens : StepCase stages choice m m')
    (layout : Layout stages m.kv m.exec) (ok : m.exec.ControlOk) : m'.exec.ControlOk := by
  cases happens with
  | moves control passes => exact passes.controlOk control ok
  | starts control passes => cases passes <;> trivial
  | completes => trivial
  | performs control =>
    obtain ⟨-, -, ⟨-, -, raised⟩ | ⟨-, added, -, completing⟩⟩ :=
      perform_spec choice layout control
    · simp only [ExecState.ControlOk, raised]
    · simp only [ExecState.ControlOk, completing]
  | rests => exact ok

/-- One step of the event loop is one effect on its view, and keeps the layout. -/
theorem StepCase.refines (happens : StepCase stages choice m m')
    (layout : Layout stages m.kv m.exec) (sound : (m.exec.view stages).Sound) :
    Refines stages m m' := by
  cases happens with
  | moves control passes same =>
    obtain ⟨⟨idle, calm⟩, idle', calm'⟩ := passes.idle
    rw [← control] at idle calm
    rcases same with rfl | rfl
    · exact silent_refines layout idle calm _ idle' calm'
    · refine ⟨?_, layout.withControl (rebalance_extends choice _) _ (by rw [idle']; trivial)⟩
      rw [view_withControl idle calm _ idle' calm']
      exact Effect.silent (rebalance_used choice _) (rebalance_inflight choice _)
  | starts control passes found present head reserves grows =>
    obtain ⟨⟨idle, calm⟩, idle', calm'⟩ := passes.idle
    rw [← control] at idle calm
    exact launch_refines layout sound idle calm found present head choice.ratios _ reserves grows _
      idle' calm'
  | @completes task stage tasks budget done branch next isFirst detached result =>
    obtain ⟨idle, calm⟩ := next.idle
    subst result
    refine ⟨?_, onResult_layout detached.found (detached_layout layout sound detached) done⟩
    rw [detached_view detached]
    exact onResult_effect (s := m.exec.detach task _) detached.found idle calm done
  | performs control => exact perform_refines layout sound choice control
  | rests => exact ⟨Effect.silent (fun _ => rfl) (fun _ => rfl), layout⟩

theorem StepCase.extends (happens : StepCase stages choice m m')
    (layout : Layout stages m.kv m.exec) : m.kv.Extends m'.kv := by
  cases happens with
  | moves _ _ same =>
    rcases same with rfl | rfl
    · exact extends_refl _
    · exact rebalance_extends choice _
  | starts _ _ _ _ _ _ grows => exact grows
  | completes => exact extends_refl _
  | performs control => exact (perform_spec choice layout control).2.1
  | rests => exact extends_refl _

end StepCase

/-! ## Runs -/

section Run

variable {stages : List (Stage α)}

structure Machine.Valid (stages : List (Stage α)) (m : Machine α) : Prop where
  layout : Layout stages m.kv m.exec
  sound : (m.exec.view stages).Sound
  control : m.exec.ControlOk

theorem Machine.Valid.step_case {m : Machine α} (valid : m.Valid stages) (choice : Choice) :
    StepCase stages choice m (Query.step stages choice m) :=
  Query.step_case choice valid.layout valid.sound valid.control

theorem Machine.Valid.refines {m : Machine α} (valid : m.Valid stages) (choice : Choice) :
    Refines stages m (Query.step stages choice m) :=
  (valid.step_case choice).refines valid.layout valid.sound

theorem Machine.Valid.extends {m : Machine α} (valid : m.Valid stages) (choice : Choice) :
    m.kv.Extends (Query.step stages choice m).kv :=
  (valid.step_case choice).extends valid.layout

theorem Machine.Valid.step {m : Machine α} (valid : m.Valid stages) (choice : Choice) :
    (Query.step stages choice m).Valid stages := by
  obtain ⟨effect, layout⟩ := valid.refines choice
  exact ⟨layout, effect.sound valid.sound,
    (valid.step_case choice).controlOk valid.layout valid.control⟩

theorem Machine.Valid.run {m : Machine α} (valid : m.Valid stages) (choices : Nat → Choice)
    (n : Nat) : (Query.run stages choices m n).Valid stages := by
  induction n with
  | zero => exact valid
  | succ n ih => exact ih.step (choices n)

theorem enqueueAll_control (roots : List (Task α)) : ∀ s : ExecState α,
    (roots.foldl (fun s task => enqueueTask stages task s) s).control = s.control := by
  induction roots with
  | nil =>
    intro s
    rfl
  | cons root roots ih =>
    intro s
    obtain ⟨queues, enqueued⟩ := enqueueTask_eq stages root s
    rw [List.foldl_cons, ih, enqueued]

theorem enter_control (stages : List (Stage α)) (firstTaskId : TaskId)
    (ctxs : List (SemContext α)) : (enter stages firstTaskId ctxs).control = .loopHead := by
  unfold enter
  split
  · rfl
  · exact enqueueAll_control _ _

theorem enter_valid {kv : KVMemoryManager}
    (registered : ∀ stage ∈ stages, kv.Registered stage.stageId) (firstTaskId : TaskId)
    (ctxs : List (SemContext α)) : Machine.Valid stages ⟨kv, enter stages firstTaskId ctxs⟩ := by
  obtain ⟨layout, roots, fresh, viewEq⟩ := enter_spec registered firstTaskId ctxs
  refine ⟨layout, ?_, ?_⟩
  · rw [viewEq]
    exact View.initial_sound fresh
  · have atHead := enter_control stages firstTaskId ctxs
    simp only [ExecState.ControlOk, atHead]

/-- An invariant of the view that every effect keeps, in states that meet `Q`, holds
throughout a run whose states meet `Q`. -/
theorem run_invariant {m : Machine α} (valid : m.Valid stages)
    (P : KVMemoryManager → View α → Prop) (Q : View α → Prop)
    (keeps : ∀ kv v kv' v', v.Sound → Q v → P kv v → Effect stages kv v kv' v' → P kv' v')
    (start : P m.kv (m.exec.view stages)) (choices : Nat → Choice) (n : Nat)
    (meets : ∀ i < n, Q ((run stages choices m i).exec.view stages)) :
    P (run stages choices m n).kv ((run stages choices m n).exec.view stages) := by
  induction n with
  | zero => exact start
  | succ n ih =>
    have valid' := valid.run choices n
    have before := ih fun i earlier => meets i (Nat.lt_succ_of_lt earlier)
    exact keeps _ _ _ _ valid'.sound (meets n (Nat.lt_succ_self n)) before
      (valid'.refines (choices n)).1

theorem waitingTasks_eq_zero (stages : List (Stage α)) :
    ∀ tasks : List (StageTasks α), tasks.any StageTasks.hasWaitingTasks = false →
      waitingTasks stages tasks = 0 := by
  induction stages with
  | nil =>
    intro tasks _
    simp [waitingTasks]
  | cons stage stages ih =>
    intro tasks nothing
    cases tasks with
    | nil => rfl
    | cons head tasks =>
      simp only [List.any_cons, Bool.or_eq_false_iff] at nothing
      have empty : head.waitingTasks = [] := by
        simpa [StageTasks.hasWaitingTasks] using nothing.1
      rw [waitingTasks, alignedSum_cons, empty]
      exact (zero_add _).trans (ih tasks nothing.2)

theorem live_of_returned {m : Machine α} (valid : m.Valid stages)
    (returned : m.exec.control = .returned) : (m.exec.view stages).live = 0 := by
  have ok := valid.control
  simp only [ExecState.ControlOk, returned] at ok
  simp only [ExecState.view, ok.1, waitingTasks_eq_zero stages m.exec.tasks ok.2, returned]
  rfl

end Run

end Kalypso.Query
