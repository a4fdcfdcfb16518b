import Kalypso.Query.Blocking

/-!
# Operators that await the blocking executor

A blocking operator awaits calls of `execute_tasks`, one after the other.  With the memory manager
to itself every run of it ends, and it ends with a result exactly if no task is larger than the
capacity: a producer that waits for such a task is never woken.
-/

set_option autoImplicit false

namespace Kalypso.Query

open Kalypso.Lib

variable {S R A : Type}

/-- A call of `execute_tasks` none of whose tasks fails. -/
structure TaskBatch (S R : Type) where
  seeds : List S
  budget : S → Nat
  result : S → R
  concurrency : Nat
  concurrency_pos : 0 < concurrency

namespace TaskBatch

def taskBuilder (batch : TaskBatch S R) (seed : S) : Option (BlockTask R) :=
  some ⟨batch.budget seed, some (batch.result seed)⟩

def call (batch : TaskBatch S R) : BlockingCall S R :=
  .begin batch.taskBuilder batch.concurrency batch.seeds

/-- The results in an order in which the tasks may complete. -/
def Completion (batch : TaskBatch S R) : Type :=
  { results : List R // results.Perm (batch.seeds.map batch.result) }

def Fits (capacity : Nat) (batch : TaskBatch S R) : Prop :=
  ∀ seed ∈ batch.seeds, batch.budget seed ≤ capacity

end TaskBatch

/-- What an operator does up to its next call, and how it goes on with the results. -/
inductive Coroutine (S R A : Type) where
  | ret (value : A)
  | await (batch : TaskBatch S R) (resume : batch.Completion → Coroutine S R A)

namespace Coroutine

/-- Whatever the orders in which tasks complete, a value that is returned satisfies `Q`. -/
def Ensures (Q : A → Prop) : Coroutine S R A → Prop
  | .ret value => Q value
  | .await _ resume => ∀ results, (resume results).Ensures Q

/-- Every call that the operator may come to fits into the capacity. -/
def Fitting (capacity : Nat) : Coroutine S R A → Prop
  | .ret _ => True
  | .await batch resume => batch.Fits capacity ∧ ∀ results, (resume results).Fitting capacity

end Coroutine

/-- Where an operator is, with the bytes in use. -/
inductive AwaitState (S R A : Type) where
  | active (used : Nat) (coroutine : Coroutine S R A)
  | awaiting (used : Nat) (batch : TaskBatch S R) (resume : batch.Completion → Coroutine S R A)
      (call : BlockingCall S R)

inductive AwaitStep (capacity : Nat) :
    AwaitState S R A → Option CallOp → AwaitState S R A → Prop
  | begin {used : Nat} {batch : TaskBatch S R} {resume : batch.Completion → Coroutine S R A} :
      AwaitStep capacity (.active used (.await batch resume)) none
        (.awaiting used batch resume batch.call)
  | act {used used' : Nat} {batch : TaskBatch S R} {resume : batch.Completion → Coroutine S R A}
      {call call' : BlockingCall S R} {op : CallOp}
      (acts : call.act capacity used op = some (used', call')) :
      AwaitStep capacity (.awaiting used batch resume call) (some op)
        (.awaiting used' batch resume call')
  | resume {used : Nat} {batch : TaskBatch S R} {resume : batch.Completion → Coroutine S R A}
      {call : BlockingCall S R} (returned : call.producer = .returned)
      (completed : call.results.Perm (batch.seeds.map batch.result)) :
      AwaitStep capacity (.awaiting used batch resume call) none
        (.active used (resume ⟨call.results, completed⟩))

/-- A call begins only if each of its tasks fits into the capacity. -/
def FittingStep (capacity : Nat) (s : AwaitState S R A) (op : Option CallOp)
    (s' : AwaitState S R A) : Prop :=
  AwaitStep capacity s op s' ∧
    ∀ used batch resume, s = .active used (.await batch resume) → batch.Fits capacity

def AwaitState.Final (capacity : Nat) (s : AwaitState S R A) : Prop :=
  ∀ op s', ¬ AwaitStep capacity s op s'

/-! ## Every run ends -/

def Producer.rank : Producer S R → Nat
  | .next seeds => 8 * seeds.length + 2
  | .checking _ seeds => 8 * seeds.length + 9
  | .waiting _ seeds => 8 * seeds.length + 8
  | .granted _ seeds => 8 * seeds.length + 8
  | .putting _ seeds => 8 * seeds.length + 7
  | .joining => 1
  | .returned => 0
  | .raised => 0

/-- More than the notification of the producer costs. -/
def Worker.rank : Worker R → Nat
  | .running _ => 3
  | .releasing _ => 2
  | _ => 0

namespace BlockingCall

def rank (call : BlockingCall S R) : Nat :=
  call.producer.rank + 4 * call.queue.length + (call.workers.map Worker.rank).sum

variable {capacity used used' : Nat} {call call' : BlockingCall S R} {op : CallOp}

theorem Acts.rank_lt (acts : Acts capacity used call op used' call') : call'.rank < call.rank := by
  cases acts with
  | raise at_ _ | build at_ _ | grant at_ _ | wait at_ _ | allocate at_ _ | put at_ | join at_
  | leave at_ _ =>
    simp only [rank, at_, Producer.rank, List.length_cons, List.length_nil, List.length_append]
    omega
  | get isIdle first =>
    obtain ⟨others, before, after⟩ := exists_sum_map_set Worker.rank _ _ _ isIdle
    simp only [rank, before, after, first, Worker.rank, List.length_cons]
    omega
  | finish runs =>
    obtain ⟨others, before, after⟩ := exists_sum_map_set Worker.rank _ _ _ runs
    simp only [rank, before, after, Worker.rank]
    omega
  | @release worker task ends unlocked =>
    obtain ⟨others, before, after⟩ := exists_sum_map_set Worker.rank _ _ _ ends
    have idle : (Worker.after task).rank = 0 := by
      unfold Worker.after
      split <;> rfl
    have notified : (notify call.producer).rank ≤ call.producer.rank + 1 := by
      cases call.producer with
      | waiting task seeds => exact Nat.le_refl _
      | _ => exact Nat.le_succ _
    have own : (Worker.releasing task).rank = 2 := rfl
    simp only [rank, before, after, idle, own]
    omega

end BlockingCall

/-- A later state of an operator is one that it reaches by a step. -/
def AwaitState.Follows (capacity : Nat) (later earlier : AwaitState S R A) : Prop :=
  ∃ op, AwaitStep capacity earlier op later

theorem Coroutine.acc_active (capacity : Nat) (coroutine : Coroutine S R A) :
    ∀ used, Acc (AwaitState.Follows capacity) (.active used coroutine) := by
  induction coroutine with
  | ret value =>
    refine fun used => .intro _ ?_
    rintro later ⟨op, step⟩
    cases step
  | await batch resume ih =>
    -- inside the call by its rank, behind it by the coroutine
    have awaiting : ∀ (bound used : Nat) (call : BlockingCall S R), call.rank < bound →
        Acc (AwaitState.Follows capacity) (.awaiting used batch resume call) := by
      intro bound
      induction bound with
      | zero => exact fun _ _ impossible => absurd impossible (Nat.not_lt_zero _)
      | succ bound smaller =>
        refine fun used call below => .intro _ ?_
        rintro later ⟨op, step⟩
        cases step with
        | act acts =>
          have falls := (BlockingCall.acts_of_act acts).rank_lt
          exact smaller _ _ (by omega)
        | resume returned completed => exact ih _ _
    refine fun used => .intro _ ?_
    rintro later ⟨op, step⟩
    cases step
    exact awaiting _ _ _ (Nat.lt_succ_self _)

theorem no_infinite_run {capacity : Nat} {s : AwaitState S R A}
    (acc : Acc (AwaitState.Follows capacity) s) :
    ∀ states : Nat → AwaitState S R A, states 0 = s →
      ¬ ∀ n, AwaitState.Follows capacity (states (n + 1)) (states n) := by
  induction acc with
  | intro s _ ih =>
    intro states start steps
    exact ih (states 1) (start ▸ steps 0) (fun n => states (n + 1)) rfl fun n => steps (n + 1)

theorem exists_final {capacity : Nat} {s : AwaitState S R A}
    (acc : Acc (AwaitState.Follows capacity) s) :
    ∃ ops last, Trace (AwaitStep capacity) s ops last ∧ last.Final capacity := by
  induction acc with
  | intro s _ ih =>
    by_cases final : s.Final capacity
    · exact ⟨[], s, .nil s, final⟩
    · simp only [AwaitState.Final, not_forall, not_not] at final
      obtain ⟨op, next, step⟩ := final
      obtain ⟨ops, last, run, final⟩ := ih next ⟨op, step⟩
      exact ⟨op :: ops, last, .cons step run, final⟩

/-! ## A call that is alone -/

def Producer.awaited : Producer S R → Option (BlockTask R)
  | .checking task _ => some task
  | .waiting task _ => some task
  | _ => none

namespace BlockingCall

variable {capacity used used' : Nat} {call call' : BlockingCall S R} {op : CallOp}

/-- A task that is larger than the capacity is to come, or is waited for. -/
def Oversize (capacity : Nat) (call : BlockingCall S R) : Prop :=
  (∃ seed ∈ call.producer.remaining, ∃ task ∈ call.taskBuilder seed, capacity < task.budget) ∨
    ∃ task ∈ call.producer.awaited, capacity < task.budget

theorem Acts.oversize_iff (acts : Acts capacity used call op used' call')
    (goesOn : call'.producer ≠ .raised) : call'.Oversize capacity ↔ call.Oversize capacity := by
  cases acts with
  | raise at_ _ => exact absurd rfl goesOn
  | @build seed seeds task at_ builds =>
    simp only [Oversize, at_, Producer.remaining, Producer.awaited, List.mem_cons,
      exists_eq_or_imp, builds, Option.mem_def, Option.some.injEq, reduceCtorEq, false_and,
      exists_false, or_false, exists_eq_left']
    exact or_comm
  | @grant task seeds at_ fits =>
    have small : ¬ capacity < task.budget := by omega
    simp [Oversize, at_, Producer.remaining, Producer.awaited, small]
  | wait at_ _ | allocate at_ _ | put at_ | join at_ | leave at_ _ =>
    simp [Oversize, at_, Producer.remaining, Producer.awaited]
  | get | finish => exact Iff.rfl
  | release ends unlocked =>
    have same : (notify call.producer).awaited = call.producer.awaited := by
      cases call.producer with
      | _ => rfl
    simp only [Oversize, remaining_notify, same]

/-- The state of a batch that is alone on the memory manager. -/
structure Alone (capacity used : Nat) (batch : TaskBatch S R) (call : BlockingCall S R) :
    Prop where
  ok : call.Ok
  seeds : call.seeds = batch.seeds
  taskBuilder : call.taskBuilder = batch.taskBuilder
  concurrency : call.concurrency = batch.concurrency
  goesOn : call.producer ≠ .raised
  bytes : used = call.heldBudget
  granted : ∀ task seeds, call.producer = .granted task seeds → used + task.budget ≤ capacity
  waits : ∀ task seeds, call.producer = .waiting task seeds → call.held = 0 →
    capacity < task.budget
  oversize : call.Oversize capacity ↔ ¬ batch.Fits capacity

variable {batch : TaskBatch S R}

theorem alone_begin (capacity : Nat) (batch : TaskBatch S R) :
    Alone capacity 0 batch batch.call where
  ok := ok_begin ..
  seeds := rfl
  taskBuilder := rfl
  concurrency := rfl
  goesOn := nofun
  bytes := by rw [heldBudget, TaskBatch.call, BlockingSystem.held_begin]; rfl
  granted := nofun
  waits := nofun
  oversize := by
    simp [Oversize, TaskBatch.call, begin, Producer.remaining, Producer.awaited,
      TaskBatch.taskBuilder, TaskBatch.Fits]

theorem Alone.acts (alone : Alone capacity used batch call)
    (acts : Acts capacity used call op used' call') : Alone capacity used' batch call' := by
  obtain ⟨seeds, taskBuilder, concurrency, -⟩ := acts.arguments
  have goesOn : call'.producer ≠ .raised := by
    cases acts with
    | raise at_ fails =>
      rw [alone.taskBuilder] at fails
      cases fails
    | get | finish => exact alone.goesOn
    | release ends unlocked =>
      intro raised
      cases producer : call.producer with
      | raised => exact alone.goesOn producer
      | _ =>
        rw [producer] at raised
        cases raised
    | _ => nofun
  have bytes := BlockingSystem.change_bytes acts.change (alone.bytes.trans (Nat.add_zero _).symm)
  refine ⟨alone.ok.acts acts, seeds.trans alone.seeds, taskBuilder.trans alone.taskBuilder,
    concurrency.trans alone.concurrency, goesOn, bytes, fun task rest at_ => ?_,
    fun task rest at_ nothing => ?_, (acts.oversize_iff goesOn).trans alone.oversize⟩
  · cases acts with
    | grant _ fits =>
      cases at_
      exact fits
    | get | finish => exact alone.granted task rest at_
    | release ends unlocked =>
      cases producer : call.producer with
      | granted task seeds => exact absurd producer (unlocked task seeds)
      | _ =>
        rw [producer] at at_
        cases at_
    | _ => cases at_
  · obtain ⟨held, -, origin⟩ := acts.waiting at_
    rw [held] at nothing
    rcases origin with before | ⟨-, -, full⟩
    · exact alone.waits task rest before nothing
    · rwa [alone.bytes, heldBudget, nothing, Multiset.map_zero, Multiset.sum_zero,
        Nat.zero_add] at full

theorem Alone.fits_of_returned (alone : Alone capacity used batch call)
    (returned : call.producer = .returned) : batch.Fits capacity := by
  by_contra large
  have oversize := alone.oversize.mpr large
  simp [Oversize, returned, Producer.remaining, Producer.awaited] at oversize

theorem Alone.used_of_returned (alone : Alone capacity used batch call)
    (returned : call.producer = .returned) : used = 0 := by
  have nothing : call.working = 0 := by
    rw [← Multiset.card_eq_zero, ← alone.ok.counted]
    exact alone.ok.finished returned
  rw [alone.bytes, heldBudget, held, returned, nothing]
  rfl

theorem Alone.results_perm (alone : Alone capacity used batch call)
    (returned : call.producer = .returned) :
    call.results.Perm (batch.seeds.map batch.result) := by
  have results := alone.ok.results_perm returned
  rw [alone.taskBuilder, alone.seeds] at results
  simpa [seedOutcomes, TaskBatch.taskBuilder] using Multiset.coe_eq_coe.mp results

/-! ### Progress -/

theorem exists_act_of_working (alive : ∃ worker ∈ call.workers, dead worker = 0)
    (unlocked : ∀ task seeds, call.producer ≠ .granted task seeds) (works : call.working ≠ 0) :
    ∃ op, (call.act capacity used op).isSome = true := by
  by_cases busy : ∃ worker ∈ call.workers, worker.busy ≠ 0
  · obtain ⟨worker, member, busy⟩ := busy
    obtain ⟨index, bound, rfl⟩ := List.getElem_of_mem member
    have found := List.getElem?_eq_getElem bound
    cases isWorker : call.workers[index] with
    | running task =>
      refine ⟨.finish index, ?_⟩
      simp [act, found, isWorker]
    | releasing task =>
      refine ⟨.release index, ?_⟩
      rw [isWorker] at found
      cases producer : call.producer with
      | granted task seeds => exact absurd producer (unlocked task seeds)
      | _ => simp [act, found, producer]
    | idle | dead =>
      rw [isWorker] at busy
      exact absurd rfl busy
  · push Not at busy
    have none : (call.workers.map Worker.busy).sum = 0 := by
      rw [Multiset.eq_zero_iff_forall_notMem]
      intro task member
      obtain ⟨worker, isWorker, inBusy⟩ := (mem_sum_map _ _ _).mp member
      rw [busy worker isWorker] at inBusy
      exact Multiset.notMem_zero task inBusy
    obtain ⟨worker, member, isAlive⟩ := alive
    obtain ⟨index, bound, rfl⟩ := List.getElem_of_mem member
    have found := List.getElem?_eq_getElem bound
    cases queue : call.queue with
    | nil => simp [working, none, queue] at works
    | cons task rest =>
      refine ⟨.get index, ?_⟩
      have idle := busy _ member
      cases isWorker : call.workers[index] with
      | idle => simp [act, found, isWorker, queue]
      | dead => simp [isWorker, dead] at isAlive
      | running task | releasing task => simp [isWorker, Worker.busy] at idle

theorem Alone.progress (alone : Alone capacity used batch call) (fits : batch.Fits capacity)
    (unfinished : call.producer ≠ .returned) :
    ∃ op, (call.act capacity used op).isSome = true := by
  have alive : ∃ worker ∈ call.workers, dead worker = 0 := by
    refine exists_alive alone.ok.size alone.ok.doomed ?_
    rw [alone.taskBuilder, alone.concurrency]
    have none : fatalSeeds batch.taskBuilder call.seeds = 0 := by
      simp [fatalSeeds, TaskBatch.taskBuilder, fatal]
    rw [none]
    exact batch.concurrency_pos
  cases producer : call.producer with
  | next seeds =>
    cases seeds with
    | nil => exact ⟨.join, by simp [act, producer]⟩
    | cons seed seeds =>
      exact ⟨.build, by simp [act, producer, alone.taskBuilder, TaskBatch.taskBuilder]⟩
  | checking task seeds =>
    refine ⟨.check, ?_⟩
    simp only [act, producer]
    split <;> rfl
  | waiting task seeds =>
    refine exists_act_of_working alive (by simp [producer]) ?_
    intro nothing
    have none : call.held = 0 := by simp [held, producer, Producer.admitted, nothing]
    have large := alone.waits task seeds producer none
    exact alone.oversize.mp (.inr ⟨task, by simp [producer, Producer.awaited], large⟩) fits
  | granted task seeds =>
    exact ⟨.allocate, by simp [act, producer, alone.granted task seeds producer]⟩
  | putting task seeds =>
    by_cases room : call.queue.length < call.concurrency
    · exact ⟨.put, by simp [act, producer, room]⟩
    · refine exists_act_of_working alive (by simp [producer]) ?_
      intro nothing
      have queued : (call.queue : Multiset (BlockTask R)) = 0 :=
        Multiset.le_zero.mp (nothing ▸ Multiset.le_add_right _ _)
      rw [(Multiset.coe_eq_zero _).mp queued, alone.concurrency] at room
      exact room batch.concurrency_pos
  | joining =>
    by_cases none : call.unfinished = 0
    · exact ⟨.join, by simp [act, producer, none]⟩
    · refine exists_act_of_working alive (by simp [producer]) ?_
      intro nothing
      rw [alone.ok.counted, nothing] at none
      exact none rfl
  | returned => exact absurd producer unfinished
  | raised => exact absurd producer alone.goesOn

end BlockingCall

/-! ## Runs -/

namespace AwaitState

variable {capacity : Nat} {s s' : AwaitState S R A} {op : Option CallOp}

/-- Between calls nothing is in use, and a call is alone. -/
def Inv (capacity : Nat) : AwaitState S R A → Prop
  | .active used _ => used = 0
  | .awaiting used batch _ call => call.Alone capacity used batch

theorem Inv.step (inv : s.Inv capacity) (step : AwaitStep capacity s op s') : s'.Inv capacity := by
  cases step with
  | begin =>
    cases inv
    exact BlockingCall.alone_begin capacity _
  | act acts => exact inv.acts (BlockingCall.acts_of_act acts)
  | resume returned completed => exact inv.used_of_returned returned

/-- The call that is awaited fits into the capacity. -/
def Fits (capacity : Nat) : AwaitState S R A → Prop
  | .active _ _ => True
  | .awaiting _ batch _ _ => batch.Fits capacity

theorem Final.returned (final : s.Final capacity) (inv : s.Inv capacity) (fits : s.Fits capacity) :
    ∃ value, s = .active 0 (.ret value) := by
  cases s with
  | active used coroutine =>
    cases inv
    cases coroutine with
    | ret value => exact ⟨value, rfl⟩
    | await batch resume => exact absurd .begin (final _ _)
  | awaiting used batch resume call =>
    exfalso
    by_cases returned : call.producer = .returned
    · exact final _ _ (.resume returned (inv.results_perm returned))
    · obtain ⟨op, happens⟩ := inv.progress fits returned
      obtain ⟨⟨used', call'⟩, acts⟩ := Option.isSome_iff_exists.mp happens
      exact final _ _ (.act acts)

/-- The calls of a run all fit, or the run is in a call that does not. -/
theorem fitting_or_stuck {start : AwaitState S R A} {ops : List (Option CallOp)}
    (run : Trace (AwaitStep capacity) start ops s) (inv : start.Inv capacity)
    (fits : start.Fits capacity) :
    s.Inv capacity ∧ (Trace (FittingStep capacity) start ops s ∧ s.Fits capacity ∨
      ¬ s.Fits capacity) := by
  refine run.history (P := fun past s => s.Inv capacity ∧
    (Trace (FittingStep capacity) start past s ∧ s.Fits capacity ∨ ¬ s.Fits capacity)) ?_
    ⟨inv, .inl ⟨.nil _, fits⟩⟩
  rintro past s op s' step ⟨inv, fitting⟩
  refine ⟨inv.step step, ?_⟩
  have extend (past : Trace (FittingStep capacity) start past s)
      (admits : ∀ used batch resume, s = .active used (.await batch resume) →
        batch.Fits capacity) : Trace (FittingStep capacity) start (_ ++ [op]) s' :=
    past.append (.cons ⟨step, admits⟩ (.nil _))
  cases step with
  | @begin used batch resume =>
    by_cases small : batch.Fits capacity
    · refine .inl ⟨extend (fitting.resolve_right (not_not.mpr trivial)).1 ?_, small⟩
      intro used' batch' resume' same
      cases same
      exact small
    · exact .inr small
  | act acts => exact fitting.imp_left fun past => ⟨extend past.1 nofun, past.2⟩
  | resume returned completed =>
    have small := inv.fits_of_returned returned
    exact .inl ⟨extend (fitting.resolve_right (not_not.mpr small)).1 nofun, trivial⟩

theorem fits_of_fittingRun {start : AwaitState S R A} {ops : List (Option CallOp)}
    (run : Trace (FittingStep capacity) start ops s) (fits : start.Fits capacity) :
    s.Fits capacity := by
  refine run.invariant (P := fun s => s.Fits capacity) ?_ fits
  rintro s op s' ⟨step, admits⟩ before
  cases step with
  | begin => exact admits _ _ _ rfl
  | act acts => exact before
  | resume returned completed => trivial

/-- What is still to come fits into the capacity. -/
def Fitting (capacity : Nat) : AwaitState S R A → Prop
  | .active _ coroutine => coroutine.Fitting capacity
  | .awaiting _ _ resume _ => ∀ results, (resume results).Fitting capacity

theorem fittingRun_of_fitting {start : AwaitState S R A} {ops : List (Option CallOp)}
    (run : Trace (AwaitStep capacity) start ops s) (fitting : start.Fitting capacity) :
    Trace (FittingStep capacity) start ops s := by
  induction run with
  | nil s => exact .nil s
  | cons step _ ih =>
    cases step with
    | begin =>
      refine .cons ⟨.begin, ?_⟩ (ih fitting.2)
      intro used batch resume same
      cases same
      exact fitting.1
    | act acts => exact .cons ⟨.act acts, nofun⟩ (ih fitting)
    | resume returned completed =>
      exact .cons ⟨.resume returned completed, nofun⟩ (ih (fitting _))

/-- An operator that awaits a call with a task larger than the capacity never returns. -/
theorem not_returned_of_large {batch : TaskBatch S R} {resume : batch.Completion → Coroutine S R A}
    (large : ¬ batch.Fits capacity) {ops : List (Option CallOp)}
    (run : Trace (AwaitStep capacity) (.active 0 (.await batch resume)) ops s) (used : Nat)
    (value : A) : s ≠ .active used (.ret value) := by
  rintro rfl
  obtain ⟨-, fitting⟩ := fitting_or_stuck run rfl trivial
  cases (fitting.resolve_right (not_not.mpr trivial)).1 with
  | cons first _ => exact large (first.2 _ _ _ rfl)

/-- What an operator in this state still ensures. -/
def Ensures (Q : A → Prop) : AwaitState S R A → Prop
  | .active _ coroutine => coroutine.Ensures Q
  | .awaiting _ _ resume _ => ∀ results, (resume results).Ensures Q

theorem ensures_of_trace {Q : A → Prop} {start : AwaitState S R A} {ops : List (Option CallOp)}
    (run : Trace (AwaitStep capacity) start ops s) (ensures : start.Ensures Q) : s.Ensures Q := by
  refine run.invariant (P := fun s => s.Ensures Q) ?_ ensures
  intro s op s' step before
  cases step with
  | begin => exact before
  | act acts => exact before
  | resume returned completed => exact before _

end AwaitState

/-- Every run of an operator ends, and it ends with a value as ensured exactly if each call that
the run begins fits into the capacity. -/
theorem Coroutine.runs {Q : A → Prop} {coroutine : Coroutine S R A}
    (ensures : coroutine.Ensures Q) (capacity : Nat) :
    (¬ ∃ states : Nat → AwaitState S R A, states 0 = .active 0 coroutine ∧
      ∀ n, AwaitState.Follows capacity (states (n + 1)) (states n)) ∧
    ∀ ops s, Trace (AwaitStep capacity) (.active 0 coroutine) ops s → s.Final capacity →
      ((∃ value, s = .active 0 (.ret value) ∧ Q value) ↔
        Trace (FittingStep capacity) (.active 0 coroutine) ops s) := by
  refine ⟨?_, fun ops s run final => ?_⟩
  · rintro ⟨states, start, steps⟩
    exact no_infinite_run (coroutine.acc_active capacity 0) states start steps
  · obtain ⟨inv, fitting⟩ := AwaitState.fitting_or_stuck run rfl trivial
    constructor
    · rintro ⟨value, rfl, -⟩
      exact (fitting.resolve_right (not_not.mpr trivial)).1
    · intro fits
      obtain ⟨value, rfl⟩ := final.returned inv (AwaitState.fits_of_fittingRun fits trivial)
      exact ⟨value, rfl, AwaitState.ensures_of_trace run ensures⟩

end Kalypso.Query
