import Mathlib.Data.Finset.Filter
import Kalypso.Query.PinFlags
import Kalypso.Query.Runs
import Kalypso.Query.Trackers

/-!
# The pins of a segment in execution

The set of pinned requests beside the event loop.  A request is pinned and unpinned by the
operators of a task, whose calls are entered when the task completes, and unpinned by the loop.
While a segment runs every pinned request has an owner: a tuple that is still alive, a tracker that
waits for children, or an unpin that is due.
-/

set_option autoImplicit false

namespace Kalypso.Query

open Kalypso.Lib
open SemOperator

/-! ## A run through the operators of a stage -/

/-- The requests that are pinned and unpinned while the operators run on the tuple. -/
def runEvents : List SemOperator → SemContext TupleData → List PinEvent
  | [], _ => []
  | op :: rest, ctx =>
      match op.call ctx with
      | (.keepGoing, s) => s.events ++ runEvents rest s.ctx
      | (_, s) => s.events

def TaskResult.pinReqId : TaskResult TupleData → Option RequestId
  | .finished ctx => ctx.pinReqId
  | .retry ctx _ _ => ctx.pinReqId
  | .dropped => none
  | .raised => none

/-- The tuple comes to the operators without a pin, if the first of them is to take one. -/
def Admits (chain : List SemOperator) (ctx : SemContext TupleData) : Prop :=
  ∀ op ∈ chain.head?, op.pin = true → ctx.pinReqId = none

section Chain

variable {op : SemOperator} {chain rest : List SemOperator} {ctx ctx' : SemContext TupleData}
  {s : Session}

theorem Admits.free (admits : Admits (op :: rest) ctx) : op.Free ⟨ctx, []⟩ :=
  fun pin => .inr (admits op rfl pin)

theorem Admits.tail (firstPins : FirstPins (op :: rest)) (ctx : SemContext TupleData) :
    Admits rest ctx := by
  intro next isNext pin
  have noPin := firstPins next (List.mem_of_mem_head? isNext)
  rw [noPin] at pin
  cases pin

theorem FirstPins.tail (firstPins : FirstPins (op :: rest)) : FirstPins rest :=
  fun other member => firstPins other (List.mem_of_mem_tail member)

theorem runOperators_cons (op : SemOperator) (rest : List SemOperator) (idx : Nat)
    (ctx : SemContext TupleData) :
    Stage.runOperators ((op :: rest).map toTupleOp) idx ctx =
      match op.call ctx with
      | (.keepGoing, s) => Stage.runOperators (rest.map toTupleOp) (idx + 1) s.ctx
      | (.drop, _) => .dropped
      | (.retry, s) => .retry s.ctx idx false
      | (.raise, _) => .raised := by
  rw [List.map_cons, Stage.runOperators]
  simp only [toTupleOp, result]
  obtain ⟨verdict, s⟩ := op.call ctx
  cases verdict <;> rfl

/-- What is pinned after the run is recorded in its result, or belongs to others. -/
theorem runOperators_recorded {others : Finset RequestId} (chain : List SemOperator) :
    ∀ (idx : Nat) (ctx : SemContext TupleData) (before : Finset RequestId),
      FirstPins chain → Admits chain ctx →
      (∀ request ∈ before, ctx.pinReqId = some request ∨ request ∈ others) →
      Stage.runOperators (chain.map toTupleOp) idx ctx ≠ .raised →
      ∀ request ∈ pinnedAfter before (runEvents chain ctx),
        (Stage.runOperators (chain.map toTupleOp) idx ctx).pinReqId = some request ∨
          request ∈ others := by
  induction chain with
  | nil =>
    intro idx ctx before _ _ recorded _
    exact recorded
  | cons op rest ih =>
    intro idx ctx before firstPins admits recorded calm
    have start : Session.Recorded before others ⟨ctx, []⟩ := recorded
    have leaves := run_leaves start admits.free
    change (op.call ctx).1.Leaves before others (op.call ctx).2 at leaves
    rw [runOperators_cons] at calm ⊢
    rw [runEvents]
    cases called : op.call ctx with
    | mk verdict s =>
      rw [called] at leaves calm
      cases verdict with
      | keepGoing =>
        rw [pinnedAfter_append]
        exact ih (idx + 1) s.ctx _ firstPins.tail (Admits.tail firstPins s.ctx) leaves calm
      | drop => exact fun request member => .inr (leaves.pinned request member)
      | retry => exact leaves
      | raise => exact absurd rfl calm

theorem runOperators_unpinned (chain : List SemOperator) :
    ∀ (idx : Nat) (ctx : SemContext TupleData), (∀ op ∈ chain, ¬ op.TakesPin) →
      ctx.pinReqId = none →
      (Stage.runOperators (chain.map toTupleOp) idx ctx).pinReqId = none := by
  induction chain with
  | nil =>
    intro idx ctx _ unpinned
    exact unpinned
  | cons op rest ih =>
    intro idx ctx noPins unpinned
    have later : (op.call ctx).2.ctx.pinReqId = none :=
      run_pinReqId (noPins op List.mem_cons_self) unpinned
    rw [runOperators_cons]
    cases called : op.call ctx with
    | mk verdict s =>
      rw [called] at later
      cases verdict with
      | keepGoing =>
        exact ih (idx + 1) s.ctx
          (fun other member => noPins other (List.mem_cons_of_mem _ member)) later
      | retry => exact later
      | drop | raise => rfl

theorem keepGoing_of_finished {idx : Nat}
    (finished : Stage.runOperators ((op :: rest).map toTupleOp) idx ctx =
      .finished ctx') :
    ∃ s, op.call ctx = (.keepGoing, s) ∧
      Stage.runOperators (rest.map toTupleOp) (idx + 1) s.ctx = .finished ctx' := by
  rw [runOperators_cons] at finished
  generalize op.call ctx = called at finished ⊢
  obtain ⟨verdict, s⟩ := called
  cases verdict with
  | keepGoing => exact ⟨s, rfl, finished⟩
  | drop | retry | raise => cases finished

/-- A last operator that heeds its `unpin` flag leaves a finished tuple without a pin. -/
theorem runOperators_settled (last : SemOperator) (unpin : last.unpin = true)
    (isCall : last.opClass ≠ .indexedSearch) (front : List SemOperator) :
    ∀ (idx : Nat) (ctx ctx' : SemContext TupleData), FirstPins (front ++ [last]) →
      Admits (front ++ [last]) ctx →
      Stage.runOperators ((front ++ [last]).map toTupleOp) idx ctx = .finished ctx' →
      ctx'.pinReqId = none := by
  induction front with
  | nil =>
    intro idx ctx ctx' _ admits finished
    obtain ⟨s, called, done⟩ := keepGoing_of_finished finished
    cases done
    have start : Session.Recorded ∅ ∅ ⟨ctx, []⟩ := fun _ member => nomatch member
    have goes : (last.run ⟨ctx, []⟩).1 = .keepGoing := congrArg Prod.fst called
    have left : (last.run ⟨ctx, []⟩).2 = s := congrArg Prod.snd called
    rw [← left]
    exact (run_released start admits.free unpin isCall goes).pinReqId
  | cons op front ih =>
    intro idx ctx ctx' firstPins _ finished
    obtain ⟨s, -, later⟩ := keepGoing_of_finished finished
    exact ih (idx + 1) s.ctx ctx' firstPins.tail (Admits.tail firstPins s.ctx) later

theorem SemOperator.run_pinReqId_of_retry (retry : (op.run s).1 = .retry)
    (unpinned : s.ctx.pinReqId = none) : (op.run s).2.ctx.pinReqId = none := by
  obtain ⟨-, isMap⟩ := callMap_of_retry retry
  rw [isMap] at retry ⊢
  have cutShort := callMap_retry_iff.mp retry
  rw [callMap_snd_of_retry cutShort]
  by_cases cut : (s.execute op.pin).1.finishReason = .length ∧
      plannedMaxTokens (op.mapCall s) s.next.estimator < maxTokenLimit
  · simp only [runMap, if_pos cut]
    cases pin : op.pin with
    | false => simpa [requeue, pin] using unpinned
    | true => simp [requeue, pin, Session.setPin]
  · simp only [runMap, if_neg cut] at cutShort
    cases cutShort

/-- The operator that sends a tuple back is one of those that were to run. -/
theorem retry_position {chain : List SemOperator} {idx opIndex : Nat}
    {ctx ctx' : SemContext TupleData} {retain : Bool}
    (retried : Stage.runOperators (chain.map toTupleOp) idx ctx =
      .retry ctx' opIndex retain) :
    idx ≤ opIndex ∧ opIndex < idx + chain.length ∧
      (opIndex = idx → ctx.pinReqId = none → ctx'.pinReqId = none) := by
  obtain ⟨-, j, tupleOp, earlier, rfl, found, again, first⟩ := Stage.runOperators_retry retried
  rw [List.getElem?_map] at found
  obtain ⟨op, atIndex, rfl⟩ := Option.map_eq_some_iff.mp found
  have bound := (List.getElem?_eq_some_iff.mp atIndex).1
  refine ⟨Nat.le_add_right _ _, by omega, fun isFirst unpinned => ?_⟩
  obtain rfl := first (by omega)
  obtain ⟨retry, rfl⟩ := result_retry again
  exact run_pinReqId_of_retry retry unpinned

end Chain

/-! ## Tasks -/

def chainAt (ops : List PhysicalOp) (stages : List (Stage TupleData)) (idx : Nat) :
    List SemOperator :=
  (stages[idx]?.map (chainOf ops)).getD []

theorem chainAt_of_found {ops : List PhysicalOp} {stages : List (Stage TupleData)} {idx : Nat}
    {stage : Stage TupleData} (found : stages[idx]? = some stage) :
    chainAt ops stages idx = chainOf ops stage := by
  rw [chainAt, found]
  rfl

/-- A tuple at the first operator of the chain, or in a chain that takes no pin, has no pin. -/
structure Fits (chain : List SemOperator) (ctx : SemContext TupleData) (opIndex : Nat) : Prop where
  index : opIndex = 0 ∨ opIndex < chain.length
  fresh : opIndex = 0 → ctx.pinReqId = none
  unpinned : (∀ op ∈ chain, ¬ op.TakesPin) → ctx.pinReqId = none

theorem fits_of_unpinned (chain : List SemOperator) {ctx : SemContext TupleData}
    (unpinned : ctx.pinReqId = none) : Fits chain ctx 0 :=
  ⟨.inl rfl, fun _ => unpinned, fun _ => unpinned⟩

section Task

variable {ops : List PhysicalOp} {stage : Stage TupleData} {task : Task TupleData}
  {chain : List SemOperator} {ctx : SemContext TupleData} {opIndex : Nat}

theorem Fits.admits (fits : Fits chain ctx opIndex) (firstPins : FirstPins chain) :
    Admits (chain.drop opIndex) ctx := by
  intro op isHead pin
  cases opIndex with
  | zero => exact fits.fresh rfl
  | succ n =>
    have later : op ∈ chain.tail := by
      rw [← List.drop_one]
      rw [Nat.add_comm, ← List.drop_drop] at isHead
      exact List.mem_of_mem_drop (List.mem_of_mem_head? isHead)
    have noPin := firstPins op later
    rw [noPin] at pin
    cases pin

theorem FirstPins.drop (firstPins : FirstPins chain) (n : Nat) : FirstPins (chain.drop n) := by
  intro op member
  rw [List.tail_drop, ← List.drop_tail] at member
  exact firstPins op (List.mem_of_mem_drop member)

theorem Chained.runTask (chained : Chained ops stage) (task : Task TupleData) :
    stage.runTask task = Stage.runOperators
      (((chainOf ops stage).drop task.opIndex).map toTupleOp) task.opIndex
      task.ctx := by
  rw [Stage.runTask, chained.operators, List.map_drop]

theorem Fits.finished {ctx' : SemContext TupleData} (fits : Fits chain ctx opIndex)
    (firstPins : FirstPins chain) (settles : Settles chain)
    (finished : Stage.runOperators ((chain.drop opIndex).map toTupleOp) opIndex ctx =
      .finished ctx') : ctx'.pinReqId = none := by
  rcases settles with noPins | ⟨front, last, rfl, unpin, isCall⟩
  · have result := runOperators_unpinned (chain.drop opIndex) opIndex ctx
      (fun op member => noPins op (List.mem_of_mem_drop member)) (fits.unpinned noPins)
    rw [finished] at result
    exact result
  · have bound : opIndex ≤ front.length := by
      have index := fits.index
      rw [List.length_append, List.length_singleton] at index
      omega
    have split : (front ++ [last]).drop opIndex = front.drop opIndex ++ [last] :=
      List.drop_append_of_le_length bound
    have admits := fits.admits firstPins
    have first := firstPins.drop opIndex
    rw [split] at admits first finished
    exact runOperators_settled last unpin isCall _ opIndex ctx ctx' first admits finished

theorem Fits.retry {ctx' : SemContext TupleData} {later : Nat} {retain : Bool}
    (fits : Fits chain ctx opIndex)
    (retried : Stage.runOperators ((chain.drop opIndex).map toTupleOp) opIndex ctx =
      .retry ctx' later retain) : Fits chain ctx' later := by
  obtain ⟨lower, upper, unpinned⟩ := retry_position retried
  rw [List.length_drop] at upper
  refine ⟨.inr (by omega), ?_, ?_⟩
  · intro atFirst
    have same : later = opIndex := by omega
    exact unpinned same (fits.fresh (by omega))
  · intro noPins
    have result := runOperators_unpinned (chain.drop opIndex) opIndex ctx
      (fun op member => noPins op (List.mem_of_mem_drop member)) (fits.unpinned noPins)
    rw [retried] at result
    exact result

end Task

/-! ## What becomes of the pin of a completed task -/

inductive Continues (stage : Stage TupleData) (task : Task TupleData) (child : Task TupleData) :
    TaskResult TupleData → Prop where
  | again (retain : Bool) (same : child.stageIndex = task.stageIndex) :
      Continues stage task child (.retry child.ctx child.opIndex retain)
  | next (ctx : SemContext TupleData) (produced : child.ctx ∈ stage.fanout ctx)
      (stageIndex : child.stageIndex = task.stageIndex + 1) (atFirst : child.opIndex = 0) :
      Continues stage task child (.finished ctx)

def Owners (tasks : List (Task TupleData)) (trackers : List JoinTracker) (due : List ExecEvent)
    (request : RequestId) : Prop :=
  (∃ task ∈ tasks, task.ctx.pinReqId = some request) ∨
    (∃ tracker ∈ trackers, tracker.parentPin = some request) ∨
      ∃ k, ExecEvent.unpin request k ∈ due

/-- A branch of the completion loop finds an owner for the pin of the result. -/
structure Outcome (s : ExecState TupleData) (stage : Stage TupleData) (task : Task TupleData)
    (result : TaskResult TupleData) (branch : ExecState TupleData × List (Action TupleData)) :
    Prop where
  tasks : ∀ child ∈ scriptTasks branch.2, Continues stage task child result
  kept : ∀ tracker ∈ s.trackers, tracker ∈ branch.1.trackers
  waited : ∀ tracker ∈ branch.1.trackers, tracker ∈ s.trackers ∨ 0 < tracker.pendingChildren
  out : branch.1.out = s.out
  owned : ∀ request, result.pinReqId = some request →
    Owners (scriptTasks branch.2) branch.1.trackers (scriptEvents branch.2) request

section Outcome

variable {s : ExecState TupleData} {stage : Stage TupleData} {task : Task TupleData} {budget : Int}
  {ctx : SemContext TupleData}

theorem mem_newTasks {stageIndex : Nat} {trackers : List TrackerId}
    {ctxs : List (SemContext TupleData)} {child : Task TupleData}
    (member : child ∈ s.newTasks stageIndex trackers ctxs) :
    child.ctx ∈ ctxs ∧ child.stageIndex = stageIndex ∧ child.opIndex = 0 := by
  obtain ⟨i, bound, rfl⟩ := List.mem_mapIdx.mp member
  exact ⟨List.getElem_mem bound, rfl, rfl⟩

theorem exists_newTask (s : ExecState TupleData) (stageIndex : Nat) (trackers : List TrackerId)
    {ctxs : List (SemContext TupleData)} (member : ctx ∈ ctxs) :
    ∃ child ∈ s.newTasks stageIndex trackers ctxs, child.ctx = ctx := by
  obtain ⟨i, bound, atIndex⟩ := List.mem_iff_getElem.mp member
  exact ⟨_, List.mem_mapIdx.mpr ⟨i, bound, rfl⟩, atIndex⟩

theorem onRetry_outcome (opIndex : Nat) :
    Outcome s stage task (.retry ctx opIndex false)
      (onRetry s stage task budget ctx opIndex false) where
  tasks := by
    intro child member
    have isChild := List.mem_singleton.mp member
    rw [isChild]
    exact .again false rfl
  kept := fun _ member => member
  waited := fun _ member => .inl member
  out := rfl
  owned := fun request own => .inl ⟨_, List.mem_singleton.mpr rfl, own⟩

theorem onDrop_outcome : Outcome s stage task .dropped (onDrop s stage task budget) where
  tasks := by
    intro child member
    simp [onDrop, script_finalizeTask] at member
  kept := fun _ member => member
  waited := fun _ member => .inl member
  out := rfl
  owned := fun _ own => nomatch own

theorem onEmptyFanout_outcome :
    Outcome s stage task (.finished ctx) (onEmptyFanout s stage task budget ctx) where
  tasks := by
    intro child member
    cases pin : ctx.pinReqId with
    | none | some request => simp [onEmptyFanout, pin, script_finalizeTask] at member
  kept := fun _ member => member
  waited := fun _ member => .inl member
  out := rfl
  owned := by
    intro request own
    have pin : ctx.pinReqId = some request := own
    refine .inr (.inr ⟨none, ?_⟩)
    simp [onEmptyFanout, pin]

theorem onPinnedFanout_outcome {childCtxs : List (SemContext TupleData)} {request : RequestId}
    (pin : ctx.pinReqId = some request) (nonempty : childCtxs ≠ [])
    (fanout : stage.fanout ctx = childCtxs) :
    Outcome s stage task (.finished ctx)
      (onPinnedFanout s stage task budget request childCtxs) where
  tasks := by
    intro child member
    simp only [onPinnedFanout, scriptTasks_append, script_deliver, scriptTasks,
      List.append_nil] at member
    obtain ⟨produced, stageIndex, atFirst⟩ := mem_newTasks member
    exact .next ctx (fanout ▸ produced) stageIndex atFirst
  kept := fun _ member => List.mem_append_left _ member
  waited := by
    intro tracker member
    rcases List.mem_append.mp member with old | new
    · exact .inl old
    · right
      rw [List.mem_singleton.mp new]
      exact Int.natCast_pos.mpr (List.length_pos_iff.mpr nonempty)
  out := rfl
  owned := by
    intro other own
    have same : ctx.pinReqId = some other := own
    rw [pin] at same
    cases same
    exact .inr (.inl ⟨_, List.mem_append_right _ (List.mem_singleton.mpr rfl), rfl⟩)

/-- The tuples go on without a tracker: a pin, if there is one, is that of the only tuple. -/
theorem onPlainFanout_outcome {childCtxs : List (SemContext TupleData)}
    (fanout : stage.fanout ctx = childCtxs) (carried : ctx.pinReqId ≠ none → ctx ∈ childCtxs) :
    Outcome s stage task (.finished ctx) (onPlainFanout s stage task budget childCtxs) where
  tasks := by
    intro child member
    simp only [onPlainFanout, scriptTasks_append, script_deliver, scriptTasks,
      List.append_nil] at member
    obtain ⟨produced, stageIndex, atFirst⟩ := mem_newTasks member
    exact .next ctx (fanout ▸ produced) stageIndex atFirst
  kept := fun _ member => member
  waited := fun _ member => .inl member
  out := rfl
  owned := by
    intro request own
    have pin : ctx.pinReqId = some request := own
    have isCarried : ctx ∈ childCtxs := carried (by simp [pin])
    obtain ⟨child, isChild, rfl⟩ :=
      exists_newTask s (task.stageIndex + 1) task.trackers isCarried
    refine .inl ⟨child, ?_, pin⟩
    simp only [onPlainFanout, scriptTasks_append, script_deliver, scriptTasks, List.append_nil]
    exact isChild

theorem onResult_outcome (result : TaskResult TupleData) (calm : result ≠ .raised)
    (released : ∀ ctx opIndex retain, result = .retry ctx opIndex retain → retain = false) :
    Outcome s stage task result (onResult s stage task budget result) := by
  cases result with
  | raised => exact absurd rfl calm
  | dropped => exact onDrop_outcome
  | retry ctx opIndex retain =>
    rw [released ctx opIndex retain rfl]
    exact onRetry_outcome opIndex
  | finished ctx =>
    cases fanoutOp : stage.fanoutOp with
    | none =>
      have fanout : stage.fanout ctx = [ctx] := by rw [Stage.fanout, fanoutOp]
      simp only [onResult, fanoutOp]
      exact onPlainFanout_outcome fanout fun _ => List.mem_singleton.mpr rfl
    | some op =>
      have fanout : stage.fanout ctx = op.call ctx := by rw [Stage.fanout, fanoutOp]
      cases childCtxs : op.call ctx with
      | nil =>
        simp only [onResult, fanoutOp, childCtxs]
        exact onEmptyFanout_outcome
      | cons child rest =>
        rw [childCtxs] at fanout
        cases pin : ctx.pinReqId with
        | none =>
          simp only [onResult, fanoutOp, childCtxs, pin]
          exact onPlainFanout_outcome fanout fun pinned => absurd pin pinned
        | some request =>
          simp only [onResult, fanoutOp, childCtxs, pin]
          exact onPinnedFanout_outcome pin (List.cons_ne_nil _ _) fanout

end Outcome

/-! ## The invariant -/

def View.Owns (v : View TupleData) (request : RequestId) : Prop :=
  (∃ task ∈ v.live, task.ctx.pinReqId = some request) ∨
    (∃ tracker ∈ v.trackers, tracker.parentPin = some request) ∨
      ∃ k, ExecEvent.unpin request k ∈ v.due

structure View.PinsOwned (ops : List PhysicalOp) (stages : List (Stage TupleData))
    (others : Finset RequestId) (v : View TupleData) (pinned : Finset RequestId) : Prop where
  owned : ∀ request ∈ pinned, v.Owns request ∨ request ∈ others
  fits : ∀ task ∈ v.live, Fits (chainAt ops stages task.stageIndex) task.ctx task.opIndex
  waited : ∀ tracker ∈ v.trackers, tracker.parentPin ≠ none → 0 < tracker.pendingChildren
  out : ∀ ctx ∈ v.out, ctx.pinReqId = none

section Completed

variable {ops : List PhysicalOp} {stages : List (Stage TupleData)}
  {others pinned : Finset RequestId}
  {s : ExecState TupleData} {stage : Stage TupleData} {task : Task TupleData} {budget : Int}

theorem mem_live_viewAfter {branch : ExecState TupleData × List (Action TupleData)}
    (idle : s.control.script = []) (ok : BranchOk stages s stage branch) (done : List TaskId)
    (other : Task TupleData) :
    other ∈ (viewAfter stages done branch).live ↔
      other ∈ (s.view stages).live ∨ other ∈ scriptTasks branch.2 := by
  simp only [ExecState.view, Control.script_completing, ok.tasks, ok.active, idle, scriptTasks,
    Multiset.mem_add, Multiset.mem_coe, List.not_mem_nil, or_false]

theorem Continues.fits {child : Task TupleData} (returns : stage.ReturnsPins ops)
    (found : stages[task.stageIndex]? = some stage)
    (fits : Fits (chainOf ops stage) task.ctx task.opIndex)
    (continues : Continues stage task child (stage.runTask task)) :
    Fits (chainAt ops stages child.stageIndex) child.ctx child.opIndex := by
  obtain ⟨chained, released⟩ := returns
  rw [chained.runTask] at continues
  generalize result : Stage.runOperators _ task.opIndex task.ctx = outcome at continues
  cases continues with
  | again retain same =>
    rw [same, chainAt_of_found found]
    exact fits.retry result
  | next ctx produced stageIndex atFirst =>
    rw [atFirst]
    apply fits_of_unpinned
    cases fanoutOp : stage.fanoutOp with
    | some op =>
      rw [Stage.fanout, fanoutOp] at produced
      exact chained.fanout op fanoutOp ctx child.ctx produced
    | none =>
      rw [Stage.fanout, fanoutOp] at produced
      rw [List.mem_singleton.mp produced]
      have settles := released.resolve_left fun fansOut => fansOut fanoutOp
      exact fits.finished chained.firstPins settles result

/-- The owner of a request that the completed task does not hold is still there. -/
theorem View.Owns.other {branch : ExecState TupleData × List (Action TupleData)}
    {request : RequestId} {done : List TaskId}
    (owns : (viewBefore stages s task stage budget).Owns request)
    (notOwn : task.ctx.pinReqId ≠ some request) (idle : s.control.script = [])
    (ok : BranchOk stages s stage branch)
    (kept : ∀ tracker ∈ s.trackers, tracker ∈ branch.1.trackers) :
    (viewAfter stages done branch).Owns request := by
  rcases owns with ⟨other, alive, pin⟩ | ⟨tracker, member, pin⟩ | ⟨k, isDue⟩
  · rcases Multiset.mem_cons.mp alive with rfl | old
    · exact absurd pin notOwn
    · exact .inl ⟨other, (mem_live_viewAfter idle ok done other).mpr (.inl old), pin⟩
  · exact .inr (.inl ⟨tracker, kept tracker member, pin⟩)
  · simp only [ExecState.view, View.withRunning, idle] at isDue
    exact absurd isDue (Multiset.notMem_zero _)

/-- A task completes: the pins it has taken have an owner, and the others keep theirs. -/
theorem View.PinsOwned.completed (returns : stage.ReturnsPins ops)
    (found : stages[task.stageIndex]? = some stage) (idle : s.control.script = [])
    (calm : stage.runTask task ≠ .raised) (done : List TaskId)
    (inv : (viewBefore stages s task stage budget).PinsOwned ops stages others pinned) :
    (viewAfter stages done (onResult s stage task budget (stage.runTask task))).PinsOwned ops
      stages others
      (pinnedAfter pinned (runEvents ((chainOf ops stage).drop task.opIndex) task.ctx)) := by
  have chained := returns.1
  have fits : Fits (chainOf ops stage) task.ctx task.opIndex := by
    rw [← chainAt_of_found found]
    exact inv.fits task (Multiset.mem_cons_self _ _)
  have ok : BranchOk stages s stage (onResult s stage task budget (stage.runTask task)) :=
    onResult_ok (List.mem_of_getElem? found) (List.getElem?_eq_some_iff.mp found).1 _
  have outcome : Outcome s stage task (stage.runTask task)
      (onResult s stage task budget (stage.runTask task)) :=
    onResult_outcome _ calm fun _ _ _ retried => (Stage.runOperators_retry retried).1
  have recorded : ∀ request ∈ pinned, task.ctx.pinReqId = some request ∨
      request ∈ pinned.filter (task.ctx.pinReqId ≠ some ·) := by
    intro request member
    by_cases own : task.ctx.pinReqId = some request
    · exact .inl own
    · exact .inr (Finset.mem_filter.mpr ⟨member, own⟩)
  have after := runOperators_recorded _ task.opIndex task.ctx pinned
    (chained.firstPins.drop task.opIndex) (fits.admits chained.firstPins) recorded
    (chained.runTask task ▸ calm)
  rw [← chained.runTask task] at after
  refine ⟨?_, ?_, ?_, ?_⟩
  · intro request member
    rcases after request member with own | old
    · left
      rcases outcome.owned request own with ⟨child, isChild, pin⟩ | byTracker | isDue
      · exact .inl ⟨child, (mem_live_viewAfter idle ok done child).mpr (.inr isChild), pin⟩
      · exact .inr (.inl byTracker)
      · exact .inr (.inr isDue)
    · obtain ⟨wasPinned, notOwn⟩ := Finset.mem_filter.mp old
      rcases inv.owned request wasPinned with owns | other
      · exact .inl (owns.other notOwn idle ok outcome.kept)
      · exact .inr other
  · intro other alive
    rcases (mem_live_viewAfter idle ok done other).mp alive with old | new
    · exact inv.fits other (Multiset.mem_cons_of_mem old)
    · exact (outcome.tasks other new).fits returns found fits
  · intro tracker member pin
    rcases outcome.waited tracker member with old | positive
    · exact inv.waited tracker old pin
    · exact positive
  · intro ctx member
    have before : ctx ∈ s.out := by
      rw [← outcome.out]
      exact member
    exact inv.out ctx before

end Completed

/-! ## Steps that complete no task -/

inductive Quiet (stages : List (Stage TupleData)) (v : View TupleData) : View TupleData → Prop where
  | same {v' : View TupleData} (live : v'.live = v.live) (trackers : v'.trackers = v.trackers)
      (out : v'.out = v.out) : Quiet stages v v'
  | emit {v' : View TupleData} (task : Task TupleData) (leaves : v.live = task ::ₘ v'.live)
      (final : stages.length ≤ task.stageIndex) (trackers : v'.trackers = v.trackers)
      (out : v'.out = v.out ++ [task.ctx]) : Quiet stages v v'
  | childFinished (k : TrackerId) (tracker : JoinTracker) (finishing : Multiset TrackerId)
      (found : v.trackers[k]? = some tracker) : Quiet stages v (v.signal k tracker finishing)

section Quiet

variable {stages : List (Stage TupleData)} {kv kv' : KVMemoryManager} {v v' : View TupleData}

section

variable {task : Task TupleData} {stage : Stage TupleData} {budget : Int}
  {live : Multiset (Task TupleData)} {held : Multiset Reservation} (sound : v.Sound)
  (completes : Completes stages v task stage budget live held)

include sound completes

theorem Completes.gone : ∀ other ∈ live, other.taskId ≠ task.taskId := by
  intro other member same
  have nodup := sound.ids_nodup
  rw [completes.leaves, Multiset.map_cons, Multiset.nodup_cons] at nodup
  exact nodup.1 (same ▸ Multiset.mem_map_of_mem _ member)

theorem Completes.not_child {trackers : List TrackerId} {positions : List (Position TupleData)}
    {children : List (Task TupleData)} (fresh : Children v.nextTaskId trackers positions children) :
    ∀ other ∈ (children + live : Multiset (Task TupleData)), other.taskId ≠ task.taskId := by
  intro other member
  rcases Multiset.mem_add.mp member with isChild | isOld
  · have lower := (fresh.id_range (Multiset.mem_coe.mp isChild)).1
    have upper := sound.ids_lt task completes.mem
    exact Nat.ne_of_gt (Nat.lt_of_lt_of_le upper lower)
  · exact completes.gone sound other isOld

end

/-- A step after which every running task is still alive completes none. -/
theorem Effect.quiet (effect : Effect stages kv v kv' v') (sound : v.Sound)
    (stays : ∀ reservation ∈ v.held, ∃ task ∈ v'.live, task.taskId = reservation.task) :
    Quiet stages v v' := by
  have running : ∀ {task stage budget live held},
      Completes stages v task stage budget live held →
        ∃ other ∈ v'.live, other.taskId = task.taskId := by
    intro task stage budget live held completes
    apply stays ⟨task.taskId, stage.stageId, budget⟩
    rw [completes.holds]
    exact Multiset.mem_cons_self _ _
  cases effect with
  | silent => exact .same rfl rfl rfl
  | start => exact .same rfl rfl rfl
  | raise completes raised | drop completes ownPin dropped =>
    obtain ⟨other, alive, same⟩ := running completes
    exact absurd same (completes.gone sound other alive)
  | advance completes goes nonempty fresh | defer completes request goes nonempty fresh =>
    obtain ⟨other, alive, same⟩ := running completes
    exact absurd same (completes.not_child sound fresh other alive)
  | emit task leaves final => exact .emit task leaves final rfl rfl
  | childFinished k tracker told found => exact .childFinished k tracker _ found
  | unpin => exact .same rfl rfl rfl
  | release => exact .same rfl rfl rfl

variable {ops : List PhysicalOp} {others pinned : Finset RequestId}

/-- A tracker that is told of a child answers for its pin, or has made the unpin due. -/
theorem owns_signal {k : TrackerId} {tracker other : JoinTracker} {finishing : Multiset TrackerId}
    {request : RequestId} (found : v.trackers[k]? = some tracker) (member : other ∈ v.trackers)
    (pin : other.parentPin = some request) : (v.signal k tracker finishing).Owns request := by
  obtain ⟨j, atIndex⟩ := List.mem_iff_getElem?.mp member
  by_cases same : k = j
  · subst same
    rw [found] at atIndex
    cases atIndex
    by_cases last : tracker.pendingChildren - 1 = 0
    · refine .inr (.inr ⟨some k, ?_⟩)
      refine Multiset.mem_add.mpr (.inl (Multiset.mem_coe.mpr ?_))
      simp [JoinTracker.firing, last, pin]
    · refine .inr (.inl ⟨tracker.afterChild, ?_, ?_⟩)
      · exact List.mem_set (List.getElem?_eq_some_iff.mp found).1 _
      · simp [JoinTracker.afterChild, last, pin]
  · refine .inr (.inl ⟨other, ?_, pin⟩)
    apply List.mem_of_getElem? (i := j)
    rw [View.signal, List.getElem?_set_ne same]
    exact atIndex

theorem waited_afterChild {tracker : JoinTracker}
    (waited : tracker.parentPin ≠ none → 0 < tracker.pendingChildren)
    (pinned : tracker.afterChild.parentPin ≠ none) : 0 < tracker.afterChild.pendingChildren := by
  by_cases last : tracker.pendingChildren - 1 = 0
  · simp [JoinTracker.afterChild, last] at pinned
  · simp only [JoinTracker.afterChild, if_neg last] at pinned ⊢
    have positive := waited pinned
    omega

theorem View.PinsOwned.quiet (quiet : Quiet stages v v')
    (dueStays : ∀ request k, ExecEvent.unpin request k ∈ v.due → .unpin request k ∈ v'.due)
    (inv : v.PinsOwned ops stages others pinned) : v'.PinsOwned ops stages others pinned := by
  cases quiet with
  | same live trackers out =>
    refine ⟨?_, live ▸ inv.fits, trackers ▸ inv.waited, out ▸ inv.out⟩
    intro request member
    rcases inv.owned request member with (byTask | byTracker | ⟨k, isDue⟩) | other
    · exact .inl (.inl (live ▸ byTask))
    · exact .inl (.inr (.inl (trackers ▸ byTracker)))
    · exact .inl (.inr (.inr ⟨k, dueStays request k isDue⟩))
    · exact .inr other
  | emit task leaves final trackers out =>
    have unpinned : task.ctx.pinReqId = none := by
      have fits := inv.fits task (leaves ▸ Multiset.mem_cons_self _ _)
      have noChain : chainAt ops stages task.stageIndex = [] := by
        rw [chainAt, List.getElem?_eq_none final]
        rfl
      rw [noChain] at fits
      exact fits.unpinned fun _ member => nomatch member
    refine ⟨?_, ?_, trackers ▸ inv.waited, ?_⟩
    · intro request member
      rcases inv.owned request member with (⟨other, alive, pin⟩ | byTracker | ⟨k, isDue⟩) | other
      · rcases Multiset.mem_cons.mp (leaves ▸ alive) with rfl | stays
        · rw [unpinned] at pin
          cases pin
        · exact .inl (.inl ⟨other, stays, pin⟩)
      · exact .inl (.inr (.inl (trackers ▸ byTracker)))
      · exact .inl (.inr (.inr ⟨k, dueStays request k isDue⟩))
      · exact .inr other
    · exact fun other alive => inv.fits other (leaves ▸ Multiset.mem_cons_of_mem alive)
    · intro ctx member
      rw [out] at member
      rcases List.mem_append.mp member with old | new
      · exact inv.out ctx old
      · rw [List.mem_singleton.mp new]
        exact unpinned
  | childFinished k tracker finishing found =>
    refine ⟨?_, inv.fits, ?_, inv.out⟩
    · intro request member
      rcases inv.owned request member with (byTask | ⟨other, known, pin⟩ | ⟨j, isDue⟩) | other
      · exact .inl (.inl byTask)
      · exact .inl (owns_signal found known pin)
      · exact .inl (.inr (.inr ⟨j, dueStays request j isDue⟩))
      · exact .inr other
    · intro other member pin
      rcases List.mem_or_eq_of_mem_set member with old | rfl
      · exact inv.waited other old pin
      · exact waited_afterChild (inv.waited tracker (List.mem_of_getElem? found)) pin

theorem View.PinsOwned.unpin {request : RequestId} {k : Option TrackerId}
    (live : v'.live = v.live) (trackers : v'.trackers = v.trackers) (out : v'.out = v.out)
    (isDue : v.due = .unpin request k ::ₘ v'.due) (inv : v.PinsOwned ops stages others pinned) :
    v'.PinsOwned ops stages others (pinned.erase request) := by
  refine ⟨?_, live ▸ inv.fits, trackers ▸ inv.waited, out ▸ inv.out⟩
  intro other member
  obtain ⟨different, wasPinned⟩ := Finset.mem_erase.mp member
  rcases inv.owned other wasPinned with (byTask | byTracker | ⟨j, wasDue⟩) | others
  · exact .inl (.inl (live ▸ byTask))
  · exact .inl (.inr (.inl (trackers ▸ byTracker)))
  · rw [isDue] at wasDue
    rcases Multiset.mem_cons.mp wasDue with now | later
    · cases now
      exact absurd rfl different
    · exact .inl (.inr (.inr ⟨j, later⟩))
  · exact .inr others

end Quiet

end Kalypso.Query
