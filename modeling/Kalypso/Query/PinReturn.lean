import Kalypso.Query.PinLedger
import Kalypso.Query.Registration

/-!
# Pins are given back

Runs of a segment with the set of pinned requests, and the execution of a plan item by item.
-/

set_option autoImplicit false

namespace Kalypso.Query

open Kalypso.Lib

/-! ## The pins of a run -/

section Run

variable (ops : List PhysicalOp) (stages : List (Stage TupleData))

def completionEvents (taskId : TaskId) (s : ExecState TupleData) : List PinEvent :=
  match s.active.find? (fun task => task.taskId = taskId) with
  | none => []
  | some task => runEvents ((chainAt ops stages task.stageIndex).drop task.opIndex) task.ctx

def stepEvents (choice : Choice) (m : Machine TupleData) : List PinEvent :=
  match m.exec.control with
  | .afterLaunch =>
      match doneFutures choice m.exec.active with
      | [] => []
      | first :: _ => completionEvents ops stages first m.exec
  | .completing (next :: _) [] => completionEvents ops stages next m.exec
  | .completing _ (.unpin request _ :: _) => [.unpin request]
  | _ => []

/-- The requests that are pinned after `n` steps, if those of `before` were at the start. -/
def pinnedAt (choices : Nat → Choice) (m : Machine TupleData) (before : Finset RequestId) :
    Nat → Finset RequestId
  | 0 => before
  | n + 1 => pinnedAfter (pinnedAt choices m before n)
      (stepEvents ops stages (choices n) (run stages choices m n))

end Run

section Step

variable {ops : List PhysicalOp} {stages : List (Stage TupleData)} {m : Machine TupleData}
  {others pinned : Finset RequestId}

/-- Executing another action leaves the unpins of the script to be done, unless it raises. -/
theorem due_perform (choice : Choice) {done : List TaskId} {script : List (Action TupleData)}
    {action : Action TupleData} (layout : Layout stages m.kv m.exec)
    (control : m.exec.control = .completing done (action :: script))
    (other : ∀ request tracker, action ≠ .unpin request tracker) (request : RequestId)
    (k : Option TrackerId) (isDue : ExecEvent.unpin request k ∈ scriptEvents (action :: script)) :
    ExecEvent.unpin request k ∈
      scriptEvents (perform stages choice done script m action).exec.control.script := by
  have kept : ExecEvent.unpin request k ∈ scriptEvents script := by
    cases action with
    | release reservation tracker => exact (List.mem_cons.mp isDue).resolve_left nofun
    | unpin earlier tracker => exact absurd rfl (other earlier tracker)
    | _ => exact isDue
  obtain ⟨-, -, ⟨-, nothing, -⟩ | ⟨-, added, -, completing⟩⟩ := perform_spec choice layout control
  · rw [nothing] at kept
    cases kept
  · rw [completing, Control.script_completing, scriptEvents_append]
    exact List.mem_append_right _ kept

theorem StepCase.quiet {choice : Choice} {m' : Machine TupleData} (valid : m.Valid stages)
    (happens : StepCase stages choice m m') (active : m.exec.active ⊆ m'.exec.active)
    (dueStays : ∀ request k, ExecEvent.unpin request k ∈ scriptEvents m.exec.control.script →
      .unpin request k ∈ scriptEvents m'.exec.control.script)
    (inv : (m.exec.view stages).PinsOwned ops stages others pinned) :
    (m'.exec.view stages).PinsOwned ops stages others pinned := by
  have quiet : Quiet stages (m.exec.view stages) (m'.exec.view stages) := by
    apply (happens.refines valid.layout valid.sound).1.quiet valid.sound
    intro reservation member
    obtain ⟨-, task, running, same⟩ := held_running valid.layout member
    refine ⟨task, ?_, same⟩
    simp only [ExecState.view, Multiset.mem_add, Multiset.mem_coe]
    exact .inl (.inr (active running))
  exact inv.quiet quiet dueStays

theorem Effect.failing_of_calm {α : Type} {stages : List (Stage α)} {kv kv' : KVMemoryManager}
    {v v' : View α} (effect : Effect stages kv v kv' v') (calm : v'.failing = false) :
    v.failing = false := by
  cases effect with
  | raise => cases calm
  | _ => exact calm

theorem MovesOn.events (choice : Choice) {before after : Control TupleData}
    (control : m.exec.control = before) (passes : MovesOn stages m.exec before after) :
    stepEvents ops stages choice m = [] := by
  unfold stepEvents
  rw [control]
  cases passes with
  | stuck inactive | drained inactive => simp [doneFutures, inactive]
  | gone done absent => simp only [completionEvents, absent]
  | _ => rfl

theorem TakesUp.events {choice : Choice} {taskId : TaskId} {done : List TaskId}
    (next : TakesUp choice m.exec taskId done) :
    stepEvents ops stages choice m = completionEvents ops stages taskId m.exec := by
  rcases next with ⟨control, futures⟩ | control
  · simp only [stepEvents, control, futures]
  · simp only [stepEvents, control]

/-- A task is taken out of the active futures. -/
theorem completes_pinsOwned (returns : ∀ stage ∈ stages, stage.ReturnsPins ops)
    {task : Task TupleData} {stage : Stage TupleData} {tasks : StageTasks TupleData} {budget : Int}
    {done : List TaskId} {branch : ExecState TupleData × List (Action TupleData)}
    (idle : m.exec.control.script = [])
    (isFirst : m.exec.active.find? (fun other => other.taskId = task.taskId) = some task)
    (detached : Detached stages m.exec task stage tasks budget)
    (result : onResult (m.exec.detach task (tasks.detachBudget task.taskId).2) stage task budget
      (stage.runTask task) = branch)
    (calm' : scriptRaises branch.2 = false)
    (inv : (m.exec.view stages).PinsOwned ops stages others pinned) :
    (ExecState.view stages { branch.1 with control := .completing done branch.2 }).PinsOwned
      ops stages others (pinnedAfter pinned (completionEvents ops stages task.taskId m.exec)) := by
  subst result
  rw [detached_view detached] at inv
  have notRaised : stage.runTask task ≠ .raised := by
    intro raised
    rw [raised] at calm'
    cases calm'
  simp only [completionEvents, isFirst]
  rw [chainAt_of_found detached.found]
  exact View.PinsOwned.completed (s := m.exec.detach task _)
    (returns stage (List.mem_of_getElem? detached.found)) detached.found idle notRaised done inv

theorem perform_pinsOwned (valid : m.Valid stages) (choice : Choice) {done : List TaskId}
    {action : Action TupleData} {script : List (Action TupleData)}
    (control : m.exec.control = .completing done (action :: script))
    (inv : (m.exec.view stages).PinsOwned ops stages others pinned) :
    ((perform stages choice done script m action).exec.view stages).PinsOwned ops stages others
      (pinnedAfter pinned (stepEvents ops stages choice m)) := by
  by_cases unpins : ∃ request k, action = .unpin request k
  · obtain ⟨request, k, rfl⟩ := unpins
    have events : stepEvents ops stages choice m = [.unpin request] := by
      cases done with
      | nil | cons next done => simp only [stepEvents, control]
    rw [events]
    have live : ((perform stages choice done script m (.unpin request k)).exec.view stages).live =
        (m.exec.view stages).live := by
      simp [ExecState.view, perform, control]
    have isDue : (m.exec.view stages).due = .unpin request k ::ₘ
        ((perform stages choice done script m (.unpin request k)).exec.view stages).due := by
      simp [ExecState.view, perform, control]
    exact inv.unpin live rfl rfl isDue
  · have other : ∀ request k, action ≠ .unpin request k :=
      fun request k isUnpin => unpins ⟨request, k, isUnpin⟩
    have events : stepEvents ops stages choice m = [] := by
      cases action with
      | unpin request k => exact absurd rfl (other request k)
      | _ => cases done with
        | nil | cons next done => simp only [stepEvents, control]
    rw [events]
    refine StepCase.quiet valid (.performs control) ?_ ?_ inv
    · rw [(perform_spec choice valid.layout control).1]
      exact List.Subset.refl _
    · intro request k isDue
      rw [control] at isDue
      exact due_perform choice valid.layout control other request k isDue

/-- Every step keeps an owner for every pinned request, as long as nothing is raised. -/
theorem step_pinsOwned (returns : ∀ stage ∈ stages, stage.ReturnsPins ops)
    (valid : m.Valid stages) (choice : Choice)
    (inv : (m.exec.view stages).PinsOwned ops stages others pinned)
    (calm' : ((step stages choice m).exec.view stages).failing = false) :
    ((step stages choice m).exec.view stages).PinsOwned ops stages others
      (pinnedAfter pinned (stepEvents ops stages choice m)) := by
  have happens := valid.step_case choice
  generalize step stages choice m = m' at happens calm' ⊢
  have quiet (idle : m.exec.control.script = []) (active : m.exec.active ⊆ m'.exec.active) :
      (m'.exec.view stages).PinsOwned ops stages others pinned := by
    refine happens.quiet valid active ?_ inv
    intro request k isDue
    rw [idle] at isDue
    cases isDue
  cases happens with
  | moves control passes =>
    rw [passes.events choice control]
    exact quiet (by rw [control]; exact passes.idle.1.1) (List.Subset.refl _)
  | starts control passes =>
    have events : stepEvents ops stages choice m = [] := by
      cases passes <;> simp only [stepEvents, control]
    rw [events]
    exact quiet (by rw [control]; exact passes.idle.1.1) (List.subset_append_left _ _)
  | completes next isFirst detached result =>
    rw [next.events]
    exact completes_pinsOwned returns next.idle.1 isFirst detached result calm' inv
  | performs control => exact perform_pinsOwned valid choice control inv
  | rests halted =>
    have events : stepEvents ops stages choice m = [] := by
      rcases halted with control | ⟨error, control⟩ <;> simp only [stepEvents, control]
    rw [events]
    exact inv

end Step

/-! ## Segments -/

section Segment

variable {ops : List PhysicalOp} {stages : List (Stage TupleData)} {kv : KVMemoryManager}
  {firstTaskId : TaskId} {ctxs : List (SemContext TupleData)}

theorem enter_pinsOwned (registered : ∀ stage ∈ stages, kv.Registered stage.stageId)
    (unpinned : ∀ ctx ∈ ctxs, ctx.pinReqId = none) (before : Finset RequestId) :
    ((enter stages firstTaskId ctxs).view stages).PinsOwned ops stages before before := by
  obtain ⟨-, roots, fresh, viewEq⟩ := enter_spec registered firstTaskId ctxs
  rw [viewEq]
  refine ⟨fun request member => .inr member, ?_, ?_, ?_⟩
  · intro task member
    have position : task.position ∈ rootPositions stages ctxs := by
      rw [← fresh.positions]
      exact List.mem_map_of_mem (Multiset.mem_coe.mp member)
    unfold rootPositions at position
    split at position
    · cases position
    · obtain ⟨ctx, given, same⟩ := List.mem_map.mp position
      have atFirst : task.opIndex = 0 := (congrArg Position.opIndex same).symm
      have ctxEq : task.ctx = ctx := (congrArg Position.ctx same).symm
      rw [atFirst, ctxEq]
      exact fits_of_unpinned _ (unpinned ctx given)
  · exact fun _ member => nomatch member
  · exact fun _ member => nomatch member

theorem enter_pendingLeLoad (registered : ∀ stage ∈ stages, kv.Registered stage.stageId) :
    ((enter stages firstTaskId ctxs).view stages).PendingLeLoad := by
  obtain ⟨-, roots, -, viewEq⟩ := enter_spec registered firstTaskId ctxs
  rw [viewEq]
  intro _ k tracker found
  cases found

/-- Throughout a run in which nothing has been raised every pinned request has an owner. -/
theorem run_pinsOwned {m : Machine TupleData} {others before : Finset RequestId}
    (returns : ∀ stage ∈ stages, stage.ReturnsPins ops) (valid : m.Valid stages)
    (start : (m.exec.view stages).PinsOwned ops stages others before) (choices : Nat → Choice)
    (n : Nat) (calm : ((run stages choices m n).exec.view stages).failing = false) :
    ((run stages choices m n).exec.view stages).PinsOwned ops stages others
      (pinnedAt ops stages choices m before n) := by
  induction n with
  | zero => exact start
  | succ n ih =>
    have valid' := valid.run choices n
    have earlier := (valid'.refines (choices n)).1.failing_of_calm calm
    exact step_pinsOwned returns valid' (choices n) (ih earlier) calm

/-- When a segment has been executed, only what was pinned before is pinned, and the tuples that it
returns have no pin. -/
theorem segment_returns (returns : ∀ stage ∈ stages, stage.ReturnsPins ops)
    (registered : ∀ stage ∈ stages, kv.Registered stage.stageId)
    (unpinned : ∀ ctx ∈ ctxs, ctx.pinReqId = none) (before : Finset RequestId)
    (choices : Nat → Choice) (n : Nat)
    (returned : (run stages choices ⟨kv, enter stages firstTaskId ctxs⟩ n).exec.control =
      .returned) :
    pinnedAt ops stages choices ⟨kv, enter stages firstTaskId ctxs⟩ before n ⊆ before ∧
      ∀ ctx ∈ (run stages choices ⟨kv, enter stages firstTaskId ctxs⟩ n).exec.out,
        ctx.pinReqId = none := by
  have valid := enter_valid registered firstTaskId ctxs
  have valid' := valid.run choices n
  have calm : ((run stages choices ⟨kv, enter stages firstTaskId ctxs⟩ n).exec.view
      stages).failing = false := by
    simp only [ExecState.view, returned]
    rfl
  have inv := run_pinsOwned returns valid
    (enter_pinsOwned registered unpinned before) choices n calm
  have counted := run_invariant valid (fun _ v => v.PendingLeLoad) (fun _ => True)
    (fun _ _ _ _ sound _ counted effect => effect.pendingLeLoad sound counted)
    (enter_pendingLeLoad registered) choices n (fun _ _ => trivial)
  have dead := live_of_returned valid' returned
  have script : (run stages choices ⟨kv, enter stages firstTaskId ctxs⟩ n).exec.control.script =
      [] := by
    rw [returned]
    rfl
  refine ⟨?_, inv.out⟩
  intro request member
  rcases inv.owned request member with (⟨task, alive, -⟩ | ⟨tracker, known, pin⟩ | ⟨k, isDue⟩) | old
  · rw [dead] at alive
    exact absurd alive (Multiset.notMem_zero _)
  · -- Nobody is left to tell the tracker of a child, so that it waits for none.
    obtain ⟨k, found⟩ := List.mem_iff_getElem?.mp known
    have bound := counted calm k tracker found
    have nothing : ((run stages choices ⟨kv, enter stages firstTaskId ctxs⟩ n).exec.view
        stages).load k = 0 := by
      rw [View.load, dead]
      simp [ExecState.view, script]
    have positive := inv.waited tracker known (by simp [pin])
    rw [nothing] at bound
    omega
  · simp only [ExecState.view, script] at isDue
    exact absurd isDue (Multiset.notMem_zero _)
  · exact old

end Segment

/-! ## Plans -/

/-- `PlanExecutor.execute` has executed the items, with `kv` the manager that planning has left:
the tuples and the pinned requests before and after. -/
inductive PlanRun (ops : List PhysicalOp) (kv : KVMemoryManager)
    (ctxs : List (SemContext TupleData)) (before : Finset RequestId) :
    List (PlanItem TupleData) → List (SemContext TupleData) → Finset RequestId → Prop where
  | start : PlanRun ops kv ctxs before [] ctxs before
  | blocking {items : List (PlanItem TupleData)} {out : List (SemContext TupleData)}
      {after : Finset RequestId} (earlier : PlanRun ops kv ctxs before items out after)
      (op : BlockingOp TupleData) :
      PlanRun ops kv ctxs before (items ++ [.blocking op]) (op.call out) after
  | join {items : List (PlanItem TupleData)} {out : List (SemContext TupleData)}
      {after : Finset RequestId} (earlier : PlanRun ops kv ctxs before items out after)
      (op : JoinOp TupleData) :
      PlanRun ops kv ctxs before (items ++ [.join op]) (out.flatMap op.call) after
  | segment {items : List (PlanItem TupleData)} {out : List (SemContext TupleData)}
      {after : Finset RequestId} (earlier : PlanRun ops kv ctxs before items out after)
      (stages : List (Stage TupleData)) (now : KVMemoryManager) (grown : kv.Extends now)
      (firstTaskId : TaskId) (choices : Nat → Choice) (n : Nat)
      (returned : (run stages choices ⟨now, enter stages firstTaskId out⟩ n).exec.control =
        .returned) :
      PlanRun ops kv ctxs before (items ++ [.segment stages])
        (run stages choices ⟨now, enter stages firstTaskId out⟩ n).exec.out
        (pinnedAt ops stages choices ⟨now, enter stages firstTaskId out⟩ after n)

section Plan

variable {ops : List PhysicalOp} {kv : KVMemoryManager} {ctxs out : List (SemContext TupleData)}
  {before after : Finset RequestId} {items : List (PlanItem TupleData)}

/-- Every item gives back what it has pinned, so that no more is pinned than before. -/
theorem PlanRun.returned (executed : PlanRun ops kv ctxs before items out after)
    (unpinned : ∀ ctx ∈ ctxs, ctx.pinReqId = none) :
    (∀ item ∈ items, item.ReturnsPins ops) →
      (∀ stages, .segment stages ∈ items → ∀ stage ∈ stages, kv.Registered stage.stageId) →
        after ⊆ before ∧ ∀ ctx ∈ out, ctx.pinReqId = none := by
  induction executed with
  | start => exact fun _ _ => ⟨Finset.Subset.refl _, unpinned⟩
  | @blocking items out after _ op ih =>
    intro returns registered
    obtain ⟨less, outUnpinned⟩ := ih
      (fun item member => returns item (List.mem_append_left _ member))
      (fun stages member => registered stages (List.mem_append_left _ member))
    refine ⟨less, ?_⟩
    intro ctx member
    have own : (PlanItem.blocking op).ReturnsPins ops :=
      returns _ (List.mem_append_right _ (List.mem_singleton.mpr rfl))
    rcases own out ctx member with given | new
    · exact outUnpinned ctx given
    · exact new
  | @join items out after _ op ih =>
    intro returns registered
    obtain ⟨less, -⟩ := ih
      (fun item member => returns item (List.mem_append_left _ member))
      (fun stages member => registered stages (List.mem_append_left _ member))
    refine ⟨less, ?_⟩
    intro child member
    have own : (PlanItem.join op).ReturnsPins ops :=
      returns _ (List.mem_append_right _ (List.mem_singleton.mpr rfl))
    obtain ⟨ctx, -, produced⟩ := List.mem_flatMap.mp member
    exact own ctx child produced
  | @segment items out after _ stages now grown firstTaskId choices n returned ih =>
    intro returns registered
    obtain ⟨less, outUnpinned⟩ := ih
      (fun item member => returns item (List.mem_append_left _ member))
      (fun stages member => registered stages (List.mem_append_left _ member))
    have isItem : PlanItem.segment stages ∈ items ++ [.segment stages] :=
      List.mem_append_right _ (List.mem_singleton.mpr rfl)
    have own : (PlanItem.segment stages).ReturnsPins ops := returns _ isItem
    have known : ∀ stage ∈ stages, now.Registered stage.stageId :=
      fun stage member => grown _ (registered stages isItem stage member)
    obtain ⟨given, unpinnedOut⟩ :=
      segment_returns own known outUnpinned after choices n returned
    exact ⟨given.trans less, unpinnedOut⟩

end Plan

theorem build_registered {ops : List (BaseOp TupleData)} {env : BuildEnv TupleData}
    {kv kv' : KVMemoryManager} {plan : List (PlanItem TupleData)}
    (built : build env kv ops = .ok (plan, kv')) :
    ∀ stages, .segment stages ∈ plan → ∀ stage ∈ stages, kv'.Registered stage.stageId := by
  intro stages isSegment stage isStage
  obtain ⟨resets, ids, -⟩ := build_ok (P := fun _ => True) (fun _ _ => trivial) built
  apply resets.registered
  rw [← ids]
  exact List.mem_flatMap.mpr ⟨_, isSegment, List.mem_map_of_mem isStage⟩

/-- Unless an `IndexedSearch` ends the last chain, nothing that was pinned for a tuple is pinned
after the segment has been executed. -/
theorem plan_returns_pins (virtualPinning : Bool) (ops : List PhysicalOp)
    (heeded : virtualPinning = true → ¬ EndsInSearch (lastChain [] ops))
    (env : BuildEnv TupleData) (unpinned : ∀ ctx ∈ env.ctxs, ctx.pinReqId = none)
    (kv kv' : KVMemoryManager) (items rest : List (PlanItem TupleData))
    (built : build env kv ((applyPinUnpin virtualPinning ops).map PhysicalOp.toBaseOp) =
      .ok (items ++ rest, kv'))
    (before after : Finset RequestId) (out : List (SemContext TupleData))
    (executed : PlanRun (applyPinUnpin virtualPinning ops) kv' env.ctxs before items out after) :
    after ⊆ before := by
  have flagged := applyPinUnpin_flagged virtualPinning ops heeded
  have returns := build_returnsPins flagged built
  have registered := build_registered built
  exact (executed.returned unpinned
    (fun item member => returns item (List.mem_append_left _ member))
    (fun stages member => registered stages (List.mem_append_left _ member))).1

/-! ## Queries of one segment -/

/-- What is pinned when the only segment of the plan has returned, if it has after `n` steps. -/
def pinnedWhenReturned (ops : List PhysicalOp) (env : BuildEnv TupleData) (kv : KVMemoryManager)
    (n : Nat) : Option (Finset RequestId) :=
  match build env kv (ops.map PhysicalOp.toBaseOp) with
  | .ok ([.segment stages], kv') =>
      match (run stages (fun _ => oldestFirst) ⟨kv', enter stages 0 env.ctxs⟩ n).exec.control with
      | .returned =>
          some (pinnedAt ops stages (fun _ => oldestFirst) ⟨kv', enter stages 0 env.ctxs⟩ ∅ n)
      | _ => none
  | _ => none

theorem exists_planRun {ops : List PhysicalOp} {env : BuildEnv TupleData} {kv : KVMemoryManager}
    {n : Nat} {after : Finset RequestId} (left : pinnedWhenReturned ops env kv n = some after) :
    ∃ plan kv' out, build env kv (ops.map PhysicalOp.toBaseOp) = .ok (plan, kv') ∧
      PlanRun ops kv' env.ctxs ∅ plan out after := by
  unfold pinnedWhenReturned at left
  split at left
  · rename_i stages kv' built
    split at left
    · rename_i returned
      cases left
      exact ⟨_, kv', _, built, .segment .start stages kv' (fun _ known => known) 0 _ n returned⟩
    · cases left
  · cases left

def oneTuple : BuildEnv TupleData where
  ctxs := [⟨{ responses := fun _ => ⟨⟨trueToken, "r1", .other⟩, [], none, 1, .empty⟩ }, none⟩]
  ratios := fun _ => none
  sample := id

theorem not_endsInSearch_filterThen {opClass : OpClass} (isCall : opClass ≠ .indexedSearch) :
    ¬ EndsInSearch (lastChain [] (filterThen opClass)) := by
  rintro ⟨first, middle, last, split, -, search⟩
  have isLast : (lastChain [] (filterThen opClass)).getLast? = some last := by
    rw [split, ← List.cons_append, List.getLast?_concat]
  have same : parsedOp opClass 1 = last := Option.some.inj isLast
  rw [← same] at search
  exact isCall search

/-- A filter and a map: the pin of the filter is given back by the map. -/
theorem plan_returns_pins_filter_map :
    ∃ plan kv' out after, build oneTuple (.init 100 1)
        ((applyPinUnpin true (filterThen .semMap)).map PhysicalOp.toBaseOp) =
          .ok (plan ++ [], kv') ∧
      PlanRun (applyPinUnpin true (filterThen .semMap)) kv' oneTuple.ctxs ∅ plan out after ∧
      after ⊆ ∅ := by
  have left : pinnedWhenReturned (applyPinUnpin true (filterThen .semMap)) oneTuple (.init 100 1)
      10 = some ∅ := by decide +kernel
  have unpinned : ∀ ctx ∈ oneTuple.ctxs, ctx.pinReqId = none := by
    intro ctx member
    rw [List.mem_singleton.mp member]
  obtain ⟨plan, kv', out, built, executed⟩ := exists_planRun left
  rw [← List.append_nil plan] at built
  exact ⟨plan, kv', out, ∅, built, executed,
    plan_returns_pins true (filterThen .semMap)
      (fun _ => not_endsInSearch_filterThen fun same => nomatch same) oneTuple unpinned _ kv' plan
      [] built ∅ ∅ out executed⟩

/-- A filter and an `IndexedSearch`: the pin of the filter is left when the plan has been
executed. -/
theorem filter_search_leaves_pin :
    ∃ plan kv' out, build oneTuple (.init 100 1)
        ((applyPinUnpin true (filterThen .indexedSearch)).map PhysicalOp.toBaseOp) =
          .ok (plan, kv') ∧
      PlanRun (applyPinUnpin true (filterThen .indexedSearch)) kv' oneTuple.ctxs ∅ plan out
        {"r1"} := by
  have left : pinnedWhenReturned (applyPinUnpin true (filterThen .indexedSearch)) oneTuple
      (.init 100 1) 10 = some {"r1"} := by decide +kernel
  exact exists_planRun left

end Kalypso.Query
