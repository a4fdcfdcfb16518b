import Mathlib.Algebra.Order.Monoid.Unbundled.WithTop
import Kalypso.Query.Termination

/-!
# Pipelined execution gives what sequential execution gives

`sequential` runs one context through the stages one after the other, without queues,
budgets or scheduling: the operators of a stage in order, each retried until it settles, then
the fan-out, then the next stage.  A multiset is conserved by every effect of the event loop:
what has been emitted, together with what every live task would still give if it were run
sequentially from its position.  When the loop returns nothing is alive, so the output is the
sequential result up to order.
-/

set_option autoImplicit false

namespace Kalypso.Query

open Kalypso.Lib

variable {α : Type}

/-! ## Sequential execution -/

/-- Run every tuple of a list and collect the results; `none` if one of them raises. -/
def gather (f : SemContext α → Option (List (SemContext α))) :
    List (SemContext α) → Option (List (SemContext α))
  | [] => some []
  | ctx :: ctxs => do return (← f ctx) ++ (← gather f ctxs)

/-- One operator on one tuple, retried until it settles: the tuple that goes on, no tuple if
it is dropped, `none` if the operator raises. -/
def TupleOp.settle (op : TupleOp α) (ctx : SemContext α) : Option (List (SemContext α)) :=
  match _ : op.call ctx with
  | .keepGoing ctx' => some [ctx']
  | .drop => some []
  | .retry ctx' => op.settle ctx'
  | .raise => none
termination_by op.retries_finite.wrap ctx
decreasing_by assumption

def settleOperators : List (TupleOp α) → SemContext α → Option (List (SemContext α))
  | [], ctx => some [ctx]
  | op :: rest, ctx => op.settle ctx >>= gather (settleOperators rest)

/-- The stages one after the other: operators in order, then the fan-out, then what is left. -/
def sequential : List (Stage α) → SemContext α → Option (List (SemContext α))
  | [], ctx => some [ctx]
  | stage :: rest, ctx =>
      settleOperators stage.operators ctx >>=
        gather fun settled => gather (sequential rest) (stage.fanout settled)

def sequentialAll (stages : List (Stage α)) (ctxs : List (SemContext α)) :
    Option (List (SemContext α)) :=
  gather (sequential stages) ctxs

theorem gather_singleton (f : SemContext α → Option (List (SemContext α)))
    (ctx : SemContext α) : gather f [ctx] = f ctx := by
  simp [gather]

theorem TupleOp.settle_eq (op : TupleOp α) (ctx : SemContext α) :
    op.settle ctx = match op.call ctx with
      | .keepGoing ctx' => some [ctx']
      | .drop => some []
      | .retry ctx' => op.settle ctx'
      | .raise => none := by
  rw [TupleOp.settle]
  split <;> simp_all

/-- Running the operators once, as `run_task` does, leads to the settled result; after a
retry the remaining operators do. -/
theorem settleOperators_of_run (operators : List (TupleOp α)) :
    ∀ (idx : Nat) (ctx : SemContext α),
      match Stage.runOperators operators idx ctx with
      | .raised => settleOperators operators ctx = none
      | .dropped => settleOperators operators ctx = some []
      | .finished ctx' => settleOperators operators ctx = some [ctx']
      | .retry ctx' opIndex _ => ∃ j, opIndex = idx + j ∧
          settleOperators operators ctx = settleOperators (operators.drop j) ctx' := by
  induction operators with
  | nil =>
    intro idx ctx
    rfl
  | cons op rest ih =>
    intro idx ctx
    have settled := op.settle_eq ctx
    rw [Stage.runOperators, settleOperators]
    cases called : op.call ctx with
    | keepGoing ctx' =>
      have later := ih (idx + 1) ctx'
      simp only [called] at settled ⊢
      rw [settled, Option.bind_eq_bind, Option.bind_some, gather_singleton]
      split
      · simpa [*] using later
      · simpa [*] using later
      · simpa [*] using later
      · rename_i result
        rw [result] at later
        obtain ⟨j, index, same⟩ := later
        exact ⟨j + 1, by omega, same⟩
    | drop | raise =>
      simp only [called] at settled ⊢
      rw [settled]
      rfl
    | retry ctx' =>
      simp only [called] at settled ⊢
      exact ⟨0, rfl, by rw [settled, List.drop_zero, settleOperators]⟩

/-! ## What a position is worth -/

/-- Results up to order; `⊤` stands for an exception. -/
def value : Option (List (SemContext α)) → WithTop (Multiset (SemContext α))
  | none => ⊤
  | some ctxs => ((ctxs : Multiset (SemContext α)) : WithTop (Multiset (SemContext α)))

theorem value_gather (f : SemContext α → Option (List (SemContext α)))
    (ctxs : List (SemContext α)) :
    value (gather f ctxs) = (ctxs.map fun ctx => value (f ctx)).sum := by
  induction ctxs with
  | nil => rfl
  | cons ctx ctxs ih =>
    rw [List.map_cons, List.sum_cons, ← ih, gather]
    cases f ctx with
    | none => exact (WithTop.top_add _).symm
    | some first =>
      cases gather f ctxs with
      | none => exact (WithTop.add_top _).symm
      | some rest => rfl

def outcome (stages : List (Stage α)) (p : Position α) : WithTop (Multiset (SemContext α)) :=
  match stages.drop p.stageIndex with
  | [] => value (some [p.ctx])
  | stage :: rest =>
      value (settleOperators (stage.operators.drop p.opIndex) p.ctx >>=
        gather fun settled => gather (sequential rest) (stage.fanout settled))

theorem outcome_of_found {stages : List (Stage α)} {stage : Stage α} {p : Position α}
    (found : stages[p.stageIndex]? = some stage) :
    outcome stages p = value (settleOperators (stage.operators.drop p.opIndex) p.ctx >>=
      gather fun settled =>
        gather (sequential (stages.drop (p.stageIndex + 1))) (stage.fanout settled)) := by
  obtain ⟨bound, atIndex⟩ := List.getElem?_eq_some_iff.mp found
  rw [outcome, List.drop_eq_getElem_cons bound, atIndex]

theorem outcome_final {stages : List (Stage α)} {p : Position α}
    (final : stages.length ≤ p.stageIndex) : outcome stages p = value (some [p.ctx]) := by
  rw [outcome, List.drop_eq_nil_of_le final]

theorem outcome_entry (stages : List (Stage α)) (ctx : SemContext α) (i : Nat) :
    outcome stages ⟨ctx, i, 0⟩ = value (sequential (stages.drop i) ctx) := by
  unfold outcome
  split
  · rename_i none
    rw [none]
    rfl
  · rename_i stage rest some
    rw [some]
    rfl

section Outcome

variable {stages : List (Stage α)} {stage : Stage α} {p : Position α}

theorem outcome_successors (found : stages[p.stageIndex]? = some stage)
    {positions : List (Position α)} (goes : stage.successors p = some positions) :
    outcome stages p = (positions.map (outcome stages)).sum := by
  have settled := settleOperators_of_run (stage.operators.drop p.opIndex) p.opIndex p.ctx
  rw [outcome_of_found found]
  unfold Stage.successors at goes
  split at goes
  · cases goes
  · rename_i ctx opIndex retainBudget result
    rw [result] at settled
    obtain ⟨j, rfl, same⟩ := settled
    cases goes
    rw [same, List.map_singleton, List.sum_singleton, List.drop_drop]
    exact (outcome_of_found (p := ⟨ctx, p.stageIndex, p.opIndex + j⟩) found).symm
  · rename_i result
    rw [result] at settled
    cases goes
    rw [settled]
    rfl
  · rename_i ctx result
    rw [result] at settled
    cases goes
    rw [settled, Option.bind_eq_bind, Option.bind_some, gather_singleton, value_gather,
      List.map_map]
    congr 1
    apply List.map_congr_left
    intro child _
    exact (outcome_entry stages child (p.stageIndex + 1)).symm

theorem outcome_raised (found : stages[p.stageIndex]? = some stage)
    (raised : stage.successors p = none) : outcome stages p = ⊤ := by
  have settled := settleOperators_of_run (stage.operators.drop p.opIndex) p.opIndex p.ctx
  rw [outcome_of_found found]
  unfold Stage.successors at raised
  split at raised
  · rename_i result
    rw [result] at settled
    rw [settled]
    rfl
  · cases raised
  · cases raised
  · cases raised

end Outcome

/-! ## Conservation -/

def View.worth (stages : List (Stage α)) (v : View α) : WithTop (Multiset (SemContext α)) :=
  value (some v.out) + (v.live.map fun task => outcome stages task.position).sum

/-- As long as nothing fails, `total` is what the view is worth; only an execution that
raises sequentially as well can fail. -/
structure View.Conserves (stages : List (Stage α)) (total : WithTop (Multiset (SemContext α)))
    (v : View α) : Prop where
  worth : v.failing = false → v.worth stages = total
  failed : v.failing = true → total = ⊤

section Conserves

variable {stages : List (Stage α)} {total : WithTop (Multiset (SemContext α))} {v v' : View α}
  {task : Task α} {live : Multiset (Task α)}

theorem View.worth_leave (leaves : v.live = task ::ₘ live) :
    v.worth stages = value (some v.out) + (outcome stages task.position +
      (live.map fun task => outcome stages task.position).sum) := by
  rw [View.worth, leaves, Multiset.map_cons, Multiset.sum_cons]

/-- The tasks `children` take the place of a task that is worth as much as they are. -/
theorem View.Conserves.replace (conserves : v.Conserves stages total)
    (leaves : v.live = task ::ₘ live) {stage : Stage α}
    (found : stages[task.stageIndex]? = some stage) {positions : List (Position α)}
    (goes : stage.successors task.position = some positions) (children : List (Task α))
    (positionsEq : children.map Task.position = positions)
    (liveEq : v'.live = children + live) (outEq : v'.out = v.out)
    (failingEq : v'.failing = v.failing) : v'.Conserves stages total := by
  have same : v'.worth stages = v.worth stages := by
    rw [View.worth_leave leaves, View.worth, liveEq, outEq, Multiset.map_add, Multiset.sum_add,
      outcome_successors found goes, ← positionsEq, List.map_map, Multiset.map_coe,
      Multiset.sum_coe]
    rfl
  refine ⟨?_, ?_⟩
  · rw [failingEq, same]
    exact conserves.worth
  · rw [failingEq]
    exact conserves.failed

theorem Effect.conserves {kv kv' : KVMemoryManager} (effect : Effect stages kv v kv' v')
    (conserves : v.Conserves stages total) : v'.Conserves stages total := by
  cases effect with
  | silent => exact conserves
  | start | childFinished | unpin | release => exact ⟨conserves.worth, conserves.failed⟩
  | raise completes raised =>
    refine ⟨fun calm => (nomatch calm), fun _ => ?_⟩
    cases failing : v.failing with
    | true => exact conserves.failed failing
    | false =>
      rw [← conserves.worth failing, View.worth_leave completes.leaves,
        outcome_raised completes.found raised, WithTop.top_add, WithTop.add_top]
  | drop completes ownPin dropped =>
    exact conserves.replace completes.leaves completes.found dropped []
      rfl (zero_add _).symm rfl rfl
  | advance completes goes nonempty fresh | defer completes request goes nonempty fresh =>
    exact conserves.replace completes.leaves completes.found goes _ fresh.positions rfl rfl rfl
  | emit task leaves final =>
    refine ⟨fun calm => ?_, conserves.failed⟩
    rw [← conserves.worth calm, View.worth_leave leaves, outcome_final final, ← add_assoc]
    rfl

end Conserves

section Run

variable {stages : List (Stage α)} {kv : KVMemoryManager}

/-- What the input contexts are worth where the loop puts them; with no stage it puts them
nowhere. -/
def entryWorth (stages : List (Stage α)) (ctxs : List (SemContext α)) :
    WithTop (Multiset (SemContext α)) :=
  ((rootPositions stages ctxs).map (outcome stages)).sum

theorem entryWorth_nil (ctxs : List (SemContext α)) :
    entryWorth ([] : List (Stage α)) ctxs = value (some []) := rfl

theorem entryWorth_eq_sequential (nonempty : stages ≠ []) (ctxs : List (SemContext α)) :
    entryWorth stages ctxs = value (sequentialAll stages ctxs) := by
  rw [entryWorth, rootPositions, if_neg (by simpa using nonempty), sequentialAll, value_gather,
    List.map_map]
  congr 1
  apply List.map_congr_left
  intro ctx _
  exact outcome_entry stages ctx 0

section

variable (registered : ∀ stage ∈ stages, kv.Registered stage.stageId) (firstTaskId : TaskId)
  (ctxs : List (SemContext α))

include registered firstTaskId ctxs

theorem enter_conserves :
    ((enter stages firstTaskId ctxs).view stages).Conserves stages
      (entryWorth stages ctxs) := by
  obtain ⟨-, roots, fresh, viewEq⟩ := enter_spec registered firstTaskId ctxs
  rw [viewEq]
  refine ⟨fun _ => ?_, fun failing => (nomatch failing)⟩
  calc (View.initial firstTaskId roots).worth stages
      = 0 + (roots.map fun task => outcome stages task.position).sum := rfl
    _ = entryWorth stages ctxs := by
        rw [zero_add, entryWorth, ← fresh.positions, List.map_map]
        rfl

theorem run_conserves (choices : Nat → Choice) (n : Nat) :
    ((run stages choices ⟨kv, enter stages firstTaskId ctxs⟩ n).exec.view stages).Conserves
      stages (entryWorth stages ctxs) :=
  run_invariant (enter_valid registered firstTaskId ctxs)
    (fun _ v => v.Conserves stages (entryWorth stages ctxs)) (fun _ => True)
    (fun _ _ _ _ _ _ conserves effect => effect.conserves conserves)
    (enter_conserves registered firstTaskId ctxs) choices n (fun _ _ => trivial)

theorem out_of_returned (choices : Nat → Choice) {n : Nat}
    (returned : (run stages choices ⟨kv, enter stages firstTaskId ctxs⟩ n).exec.control =
      .returned) :
    value (some (run stages choices ⟨kv, enter stages firstTaskId ctxs⟩ n).exec.out) =
      entryWorth stages ctxs := by
  have valid := (enter_valid registered firstTaskId ctxs).run choices n
  have conserves := run_conserves registered firstTaskId ctxs choices n
  have calm : ((run stages choices ⟨kv, enter stages firstTaskId ctxs⟩ n).exec.view
      stages).failing = false := by
    simp [ExecState.view, returned, Control.failing]
  rw [← conserves.worth calm, View.worth, live_of_returned valid returned, Multiset.map_zero,
    Multiset.sum_zero, add_zero]
  rfl

end

theorem sequential_raises (nonempty : stages ≠ [])
    (registered : ∀ stage ∈ stages, kv.Registered stage.stageId) (firstTaskId : TaskId)
    (ctxs : List (SemContext α)) (choices : Nat → Choice) {n : Nat} {error : ExecError}
    (raised : (run stages choices ⟨kv, enter stages firstTaskId ctxs⟩ n).exec.control =
      .raised error) : sequentialAll stages ctxs = none := by
  have conserves := run_conserves registered firstTaskId ctxs choices n
  have failed := conserves.failed (by simp [ExecState.view, raised])
  rw [entryWorth_eq_sequential nonempty] at failed
  cases result : sequentialAll stages ctxs with
  | none => rfl
  | some ctxs =>
    rw [result] at failed
    exact absurd failed (WithTop.coe_ne_top)

/-- Whatever completes first and whatever is admitted: if no task raises, the loop returns
after finitely many steps, never finds its queues stuck, and emits a permutation of the
sequential result.  With no stage at all it emits nothing. -/
theorem execute_tasks_eq_sequential
    (registered : ∀ stage ∈ stages, kv.Registered stage.stageId) (firstTaskId : TaskId)
    (ctxs : List (SemContext α)) (choices : Nat → Choice)
    (calm : ∀ n, (run stages choices ⟨kv, enter stages firstTaskId ctxs⟩ n).exec.control ≠
      .raised .taskException) :
    (∀ n, (run stages choices ⟨kv, enter stages firstTaskId ctxs⟩ n).exec.control ≠
      .raised .noRunnableTasks) ∧
    ∃ n, (run stages choices ⟨kv, enter stages firstTaskId ctxs⟩ n).exec.control = .returned ∧
      (stages ≠ [] → ∃ result, sequentialAll stages ctxs = some result ∧
        (run stages choices ⟨kv, enter stages firstTaskId ctxs⟩ n).exec.out.Perm result) ∧
      (stages = [] →
        (run stages choices ⟨kv, enter stages firstTaskId ctxs⟩ n).exec.out = []) := by
  have valid := enter_valid registered firstTaskId ctxs
  have neverRaised : ∀ n error,
      (run stages choices ⟨kv, enter stages firstTaskId ctxs⟩ n).exec.control ≠
        .raised error := by
    intro n error raised
    have ok := (valid.run choices n).control
    simp only [ExecState.ControlOk, raised] at ok
    exact calm n (ok ▸ raised)
  refine ⟨fun n => neverRaised n _, ?_⟩
  obtain ⟨n, returned | ⟨error, raised⟩⟩ := run_halts valid choices
  · have emitted := out_of_returned registered firstTaskId ctxs choices returned
    refine ⟨n, returned, ?_, ?_⟩
    · intro nonempty
      rw [entryWorth_eq_sequential nonempty] at emitted
      cases result : sequentialAll stages ctxs with
      | none =>
        rw [result] at emitted
        exact absurd emitted WithTop.coe_ne_top
      | some result' =>
        rw [result] at emitted
        exact ⟨result', rfl, Multiset.coe_eq_coe.mp (WithTop.coe_injective emitted)⟩
    · intro empty
      subst empty
      rw [entryWorth_nil] at emitted
      exact List.perm_nil.mp (Multiset.coe_eq_coe.mp (WithTop.coe_injective emitted))
  · exact absurd raised (neverRaised n error)

end Run

/-- Every tuple passes the first stage, is joined with two rows, and passes the second. -/
def pairFanout : List (Stage Nat) :=
  [{ stageId := 1
     operators := [passOp Nat]
     fanoutOp := some (productOp Nat 2)
     bytesPerToken := 1 },
   { stageId := 2, operators := [passOp Nat], priorityOffset := 1, bytesPerToken := 1 }]

theorem settle_passOp (ctx : SemContext α) : (passOp α).settle ctx = some [ctx] :=
  (passOp α).settle_eq ctx

theorem sequentialAll_pairFanout :
    sequentialAll pairFanout [⟨7, none⟩, ⟨8, none⟩] =
      some [⟨7, none⟩, ⟨7, none⟩, ⟨8, none⟩, ⟨8, none⟩] := by
  simp [sequentialAll, sequential, pairFanout, settleOperators, settle_passOp, gather,
    Stage.fanout, productOp]

theorem execute_tasks_pairFanout :
    (∀ stage ∈ pairFanout, KVMemoryManager.threeStages.Registered stage.stageId) ∧
      ∃ n, (run pairFanout (fun _ => oldestFirst)
          ⟨.threeStages, enter pairFanout 0 [⟨7, none⟩, ⟨8, none⟩]⟩ n).exec.control =
            .returned ∧
        (run pairFanout (fun _ => oldestFirst)
          ⟨.threeStages, enter pairFanout 0 [⟨7, none⟩, ⟨8, none⟩]⟩ n).exec.out.Perm
            [⟨7, none⟩, ⟨7, none⟩, ⟨8, none⟩, ⟨8, none⟩] := by
  have registered : ∀ stage ∈ pairFanout,
      KVMemoryManager.threeStages.Registered stage.stageId := by decide +kernel
  have nonempty : pairFanout ≠ [] := List.cons_ne_nil _ _
  obtain ⟨-, n, returned, sameTuples, -⟩ := execute_tasks_eq_sequential registered 0
    [⟨7, none⟩, ⟨8, none⟩] (fun _ => oldestFirst) fun n raised => by
      have none := sequential_raises nonempty registered 0 _ _ raised
      rw [sequentialAll_pairFanout] at none
      cases none
  obtain ⟨result, sequentially, perm⟩ := sameTuples nonempty
  rw [sequentialAll_pairFanout] at sequentially
  cases sequentially
  exact ⟨registered, n, returned, perm⟩

def noStagesRun (n : Nat) : Machine Unit :=
  run [] (fun _ => oldestFirst) ⟨.threeStages, enter [] 0 [⟨(), none⟩]⟩ n

theorem noStagesRun_succ (n : Nat) :
    (noStagesRun (n + 1)).exec = { cleared [] 0 with control := .returned } := by
  induction n with
  | zero => rfl
  | succ n ih =>
    have stays : noStagesRun (n + 2) = step [] oldestFirst (noStagesRun (n + 1)) := rfl
    rw [stays, step, ih]
    exact ih

/-- The input is queued in the first stage, if there is one: without stages the loop returns
at once and the tuple is lost, although running it through no stage gives it back. -/
theorem noStages_lose_input :
    (∀ n, (noStagesRun n).exec.control ≠ .raised .taskException) ∧
      sequentialAll ([] : List (Stage Unit)) [⟨(), none⟩] = some [⟨(), none⟩] ∧
      ¬ ∃ n result, (noStagesRun n).exec.control = .returned ∧
        sequentialAll ([] : List (Stage Unit)) [⟨(), none⟩] = some result ∧
        (noStagesRun n).exec.out.Perm result := by
  refine ⟨?_, rfl, ?_⟩
  · intro n
    cases n with
    | zero => exact fun raised => nomatch raised
    | succ n =>
      rw [noStagesRun_succ]
      exact fun raised => nomatch raised
  · intro ⟨n, result, returned, sequentially, perm⟩
    cases sequentially
    cases n with
    | zero => cases returned
    | succ n =>
      rw [noStagesRun_succ] at perm
      exact absurd perm.length_eq (by decide)

end Kalypso.Query
