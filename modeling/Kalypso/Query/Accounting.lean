import Kalypso.Query.Server

/-!
# The stage counters against the reservations

One query alone: the bytes recorded as used on a stage are those of its running tasks, of
the releases still to come and of the trackers that have not fired; every reservation is
released once; nothing is left when a segment returns.

Several queries: planning resets the counters of ids that another query may be using.  The
counters agree with the reservations of all queries as long as a query is planned only when
nothing is reserved on the ids of its plan.
-/

set_option autoImplicit false

namespace Kalypso.Query

open Kalypso.Lib
open Server

variable {α : Type}

theorem light_usedBytes {r : Reservation} (nonneg : 0 ≤ r.budget) : usedBytes.Light r :=
  ⟨nonneg, fun empty => le_antisymm empty nonneg⟩

theorem light_inflightCount {r : Reservation} (positive : 0 < r.budget) : inflightCount.Light r :=
  ⟨Int.one_nonneg, fun empty => absurd positive (not_lt.mpr empty)⟩

/-! ## One query alone -/

/-- What holds of a segment in execution, for a plan with `count` stages. -/
structure ExactBudget (count : Nat) (kv : KVMemoryManager) (stages : List (Stage α))
    (exec : ExecState α) : Prop where
  numbered : ∀ stage ∈ stages, 1 ≤ stage.stageId ∧ stage.stageId ≤ count
  used : ∀ s, 1 ≤ s → s ≤ count → kv.used s =
    usedBytes.total s (exec.view stages).held + usedBytes.total s (exec.view stages).detached +
      usedBytes.total s (exec.view stages).deferred
  once : (reserved exec.log).Nodup
  balance : (reserved exec.log : Multiset Reservation) =
    released exec.log + (exec.view stages).outstanding
  noClamp : ∀ (done : List TaskId) (r : Reservation) (tracker : Option TrackerId)
    (script : List (Action α)), exec.control = .completing done (.release r tracker :: script) →
      r.budget ≤ kv.used r.stageId ∧ 1 ≤ kv.inflight r.stageId
  closed : exec.control = .returned →
    (∀ stage ∈ stages, kv.used stage.stageId = 0) ∧
      (released exec.log).Perm (reserved exec.log)

section Alone

variable {on : StageId → Prop} {least : Int} {server : Server α}

structure Server.Counted (on : StageId → Prop) (server : Server α) : Prop where
  used : usedBytes.Balanced on server.kv server.outstanding
  inflight : inflightCount.Balanced on server.kv server.outstanding

theorem Server.executeQuery_length (i : Nat) (choice : Choice) (server : Server α) :
    (server.executeQuery i choice).queries.length = server.queries.length := by
  unfold executeQuery nextItem stepSegment
  split
  · rfl
  · split
    · split <;> simp
    · split <;> simp

theorem Server.executions (positive : 0 < least) (choices : List Choice) :
    ∀ server : Server α, server.Ok on least → server.Counted on →
      (server.run (choices.map (.execute 0))).Ok on least ∧
        (server.run (choices.map (.execute 0))).Counted on ∧
        (server.run (choices.map (.execute 0))).queries.length = server.queries.length := by
  induction choices with
  | nil =>
    intro server ok counted
    exact ⟨ok, counted, rfl⟩
  | cons choice choices ih =>
    intro server ok counted
    obtain ⟨ok', moves⟩ := ok.execute 0 choice
    have budgets : ∀ r ∈ server.outstanding, 0 < r.budget :=
      fun r member => lt_of_lt_of_le positive (ok.budgets r member)
    have counted' : (server.executeQuery 0 choice).Counted on :=
      ⟨moves.balanced (fun r member => light_usedBytes (budgets r member).le) counted.used,
        moves.balanced (fun r member => light_inflightCount (budgets r member))
          counted.inflight⟩
    obtain ⟨finalOk, finalCounted, length⟩ := ih _ ok' counted'
    exact ⟨finalOk, finalCounted, length.trans (executeQuery_length 0 choice server)⟩

theorem Server.run_no_queries (kv : KVMemoryManager) (counter : TaskId) (choices : List Choice) :
    (run (⟨kv, counter, []⟩ : Server α) (choices.map (.execute 0))).queries = [] := by
  induction choices with
  | nil => rfl
  | cons choice choices ih => exact ih

theorem exactBudget_of_counted {count : Nat} {kv : KVMemoryManager} {stages : List (Stage α)}
    {exec : ExecState α} (positive : 0 < least)
    (ok : SegmentOk (fun s => 1 ≤ s ∧ s ≤ count) least kv stages exec)
    (used : usedBytes.Balanced (fun s => 1 ≤ s ∧ s ≤ count) kv (exec.view stages).outstanding)
    (inflight : inflightCount.Balanced (fun s => 1 ≤ s ∧ s ≤ count) kv
      (exec.view stages).outstanding) :
    ExactBudget count kv stages exec := by
  have ledger := ok.ledger positive
  have budgets : ∀ r ∈ (exec.view stages).outstanding, 0 < r.budget :=
    fun r member => lt_of_lt_of_le positive (ok.budgets r member)
  have numbered : ∀ stage ∈ stages, 1 ≤ stage.stageId ∧ stage.stageId ≤ count :=
    fun stage member => (ok.ready stage member).selected
  refine ⟨numbered, ?_, List.Nodup.of_map _ ledger.once, ledger.balance, ?_, ?_⟩
  · intro s first last
    rw [← Counter.total_add, ← Counter.total_add]
    exact used s ⟨first, last⟩
  · intro done r tracker script control
    have scriptOk := ok.valid.layout.script
    simp only [control, Control.script_completing] at scriptOk
    obtain ⟨⟨stage, member, sameId⟩, -⟩ := scriptOk
    have selected := numbered stage member
    rw [sameId] at selected
    have isOutstanding : r ∈ (exec.view stages).outstanding := by
      simp [View.outstanding, View.detached, ExecState.view, control, ExecEvent.returned]
    exact ⟨used.covers (fun r member => light_usedBytes (budgets r member).le) isOutstanding
        selected,
      inflight.covers (fun r member => light_inflightCount (budgets r member)) isOutstanding
        selected⟩
  · intro returned
    have nothing := outstanding_of_returned ok.valid ok.counted returned
    refine ⟨?_, ?_⟩
    · intro stage member
      have agrees := used stage.stageId (numbered stage member)
      rw [nothing] at agrees
      exact agrees
    · have balance := ledger.balance
      rw [nothing, add_zero] at balance
      exact (Multiset.coe_eq_coe.mp balance).symm

/-- After planning, nothing is counted on the ids of the plan, unless planning has raised. -/
theorem planQuery_alone (kv : KVMemoryManager) (firstTaskId : TaskId) (env : BuildEnv α)
    (operators : List (BaseOp α)) (drawn : Nat) :
    (∃ kv', planQuery env operators drawn ⟨kv, firstTaskId, []⟩ =
        ⟨kv', firstTaskId + drawn, []⟩) ∨
      (planQuery env operators drawn ⟨kv, firstTaskId, []⟩).queries.length = 1 ∧
        Server.Counted (fun s => 1 ≤ s ∧ s ≤ stageCount operators)
          (planQuery env operators drawn ⟨kv, firstTaskId, []⟩) := by
  unfold planQuery
  split
  · rename_i plan kv' built
    right
    obtain ⟨resets, -, -⟩ := build_ok (P := fun _ => True) (fun _ _ => trivial) built
    have inRange : ∀ s, 1 ≤ s ∧ s ≤ stageCount operators →
        s ∈ List.range' 1 (stageCount operators) := by
      intro s bounds
      rw [List.mem_range'_1]
      exact ⟨bounds.1, Nat.lt_of_lt_of_eq (Nat.lt_succ_of_le bounds.2) (Nat.add_comm _ 1)⟩
    refine ⟨rfl, ?_, ?_⟩
    · intro s selected
      exact (resets.used s).trans (if_pos (inRange s selected))
    · intro s selected
      exact (resets.inflight s).trans (if_pos (inRange s selected))
  · rename_i kv' raised
    exact Or.inl ⟨kv', rfl⟩

theorem planQuery_alone_ok (kv : KVMemoryManager) (firstTaskId : TaskId) (env : BuildEnv α)
    (operators : List (BaseOp α)) (drawn : Nat)
    (positive : ∀ op, .tuple op ∈ operators →
      ∀ ratios ctx, 0 < op.estimateTokens ratios ctx) :
    (planQuery env operators drawn ⟨kv, firstTaskId, []⟩).Ok
      (fun s => 1 ≤ s ∧ s ≤ stageCount operators) kv.bytesPerToken := by
  have empty : (⟨kv, firstTaskId, []⟩ : Server α).Ok
      (fun s => 1 ≤ s ∧ s ≤ stageCount operators) kv.bytesPerToken :=
    fun _ member => nomatch member
  refine empty.plan env operators drawn positive (fun s first last => ⟨first, last⟩) ?_
  intro stage built
  have reserves := Stage.reservesAtLeast 1 built.operators
  rw [built.bytes, Nat.cast_one, one_mul] at reserves
  exact reserves

end Alone

/-- A query is planned, whatever the manager has recorded before, and executed alone.  In
every state of every segment the accounting is exact. -/
theorem budget_exact_alone (kv : KVMemoryManager) (firstTaskId : TaskId) (env : BuildEnv α)
    (operators : List (BaseOp α)) (drawn : Nat) (choices : List Choice)
    (positive : ∀ op, .tuple op ∈ operators → ∀ ratios ctx, 0 < op.estimateTokens ratios ctx)
    (bytes : 0 < kv.bytesPerToken) (query : QueryRun α)
    (present : query ∈ (Server.run ⟨kv, firstTaskId, []⟩
      (.plan env operators drawn :: choices.map (.execute 0))).queries)
    (stages : List (Stage α)) (exec : ExecState α) (running : query.segment = some (stages, exec)) :
    ExactBudget (stageCount operators) (Server.run ⟨kv, firstTaskId, []⟩
      (.plan env operators drawn :: choices.map (.execute 0))).kv stages exec := by
  have afterPlan : ∀ actions, Server.run (⟨kv, firstTaskId, []⟩ : Server α)
      (.plan env operators drawn :: actions) =
        (Server.planQuery env operators drawn ⟨kv, firstTaskId, []⟩).run actions :=
    fun _ => rfl
  rw [afterPlan] at present ⊢
  rcases planQuery_alone kv firstTaskId env operators drawn with
    ⟨kv', noQuery⟩ | ⟨single, counted⟩
  · rw [noQuery, run_no_queries] at present
    cases present
  · have ok := planQuery_alone_ok kv firstTaskId env operators drawn positive
    have leastPositive : (0 : Int) < kv.bytesPerToken := Int.natCast_pos.mpr bytes
    obtain ⟨finalOk, finalCounted, length⟩ :=
      executions leastPositive choices _ ok counted
    rw [single] at length
    obtain ⟨only, isOnly⟩ := List.length_eq_one_iff.mp length
    rw [isOnly, List.mem_singleton] at present
    subst present
    have isIts : (Server.run (Server.planQuery env operators drawn ⟨kv, firstTaskId, []⟩)
        (choices.map (.execute 0))).outstanding = (exec.view stages).outstanding := by
      rw [Server.outstanding, isOnly, List.map_singleton, List.sum_singleton,
        QueryRun.outstanding_of_segment running]
    have queryOk := finalOk query (isOnly ▸ List.mem_singleton_self query)
    have used := finalCounted.used
    have inflight := finalCounted.inflight
    rw [isIts] at used inflight
    exact exactBudget_of_counted leastPositive (queryOk.segment stages exec running).1 used
      inflight

/-- A pinned tuple is joined with two rows, and the pairs go through a second stage. -/
def pinnedJoin : List (BaseOp Unit) :=
  [.tuple (pinOp Unit "parent"), .join (productOp Unit 2), .tuple (passOp Unit)]

/-- The query `operators` on one context, planned on an empty manager of 100 bytes and
executed for `n` steps. -/
def aloneRun (operators : List (BaseOp Unit)) (n : Nat) : Server Unit :=
  Server.run ⟨.init 100 1, 0, []⟩
    (.plan ⟨[⟨(), none⟩], fun _ => none, id⟩ operators 0 ::
      (List.replicate n oldestFirst).map (.execute 0))

theorem pinnedJoin_positive : ∀ op, .tuple op ∈ pinnedJoin →
    ∀ ratios ctx, 0 < op.estimateTokens ratios ctx := by
  intro op member ratios ctx
  simp only [pinnedJoin, List.mem_cons, BaseOp.tuple.injEq, List.not_mem_nil, or_false,
    reduceCtorEq, false_or] at member
  rcases member with rfl | rfl
  · exact Nat.one_pos
  · exact Nat.one_pos

/-- Both pairs are running and the parent's reservation is with its tracker. -/
theorem budget_exact_pinnedJoin :
    ∃ query ∈ (aloneRun pinnedJoin 17).queries, ∃ stages exec,
      query.segment = some (stages, exec) ∧ exec.active.length = 2 ∧
        exec.trackers.length = 1 ∧ ExactBudget 2 (aloneRun pinnedJoin 17).kv stages exec := by
  have shape : (aloneRun pinnedJoin 17).queries.map (fun query => query.segment.map
      fun segment => (segment.2.active.length, segment.2.trackers.length)) = [some (2, 1)] := by
    decide +kernel
  obtain ⟨query, only, running⟩ := List.map_eq_singleton_iff.mp shape
  obtain ⟨⟨stages, exec⟩, isSegment, counts⟩ := Option.map_eq_some_iff.mp running
  have present : query ∈ (aloneRun pinnedJoin 17).queries := by
    rw [only]
    exact List.mem_singleton_self query
  refine ⟨query, present, stages, exec, isSegment, congrArg Prod.fst counts,
    congrArg Prod.snd counts, ?_⟩
  exact budget_exact_alone (.init 100 1) 0 _ pinnedJoin 0 _ pinnedJoin_positive Nat.one_pos
    query present stages exec isSegment

/-! ## Several queries -/

/-- A query is planned only when nothing is reserved on the ids of its plan. -/
def ServerAction.Apart (server : Server α) : ServerAction α → Prop
  | .plan _ operators _ =>
      ∀ r ∈ server.outstanding, ¬ (1 ≤ r.stageId ∧ r.stageId ≤ stageCount operators)
  | .execute _ _ => True

def Server.KeptApart (server : Server α) : List (ServerAction α) → Prop
  | [] => True
  | action :: rest => action.Apart server ∧ (server.act action).KeptApart rest

instance (server : Server α) (action : ServerAction α) : Decidable (action.Apart server) :=
  match action with
  | .plan _ operators _ => inferInstanceAs (Decidable (∀ r ∈ server.outstanding,
      ¬ (1 ≤ r.stageId ∧ r.stageId ≤ stageCount operators)))
  | .execute _ _ => isTrue trivial

instance decidableKeptApart (server : Server α) :
    ∀ actions : List (ServerAction α), Decidable (server.KeptApart actions)
  | [] => isTrue trivial
  | action :: rest =>
      have := decidableKeptApart (server.act action) rest
      inferInstanceAs (Decidable (action.Apart server ∧ (server.act action).KeptApart rest))

section Several

variable {server : Server α}

theorem Server.act_counted (ok : server.Ok (fun _ => True) 0)
    (balanced : usedBytes.Balanced (fun _ => True) server.kv server.outstanding)
    {action : ServerAction α} (apart : action.Apart server) :
    (server.act action).Ok (fun _ => True) 0 ∧
      usedBytes.Balanced (fun _ => True) (server.act action).kv
        (server.act action).outstanding := by
  cases action with
  | plan env operators drawn =>
    refine ⟨?_, ?_⟩
    · refine ok.plan env operators drawn (P := fun _ => True) (fun _ _ => trivial)
        (fun _ _ _ => trivial) ?_
      intro stage _
      have reserves := stage.reservesAtLeast 0 (fun _ _ _ _ => Nat.zero_le _)
      rw [Nat.cast_zero, zero_mul] at reserves
      exact reserves
    · obtain ⟨same, ids, resets, bounds⟩ :=
        planQuery_resets env operators drawn server
      rw [act, same]
      exact balanced.reset resets fun r member isReset => apart r member (bounds _ isReset)
  | execute i choice =>
    obtain ⟨ok', moves⟩ := ok.execute i choice
    exact ⟨ok', moves.balanced (fun r member => light_usedBytes (ok.budgets r member))
      balanced⟩

theorem Server.run_counted (actions : List (ServerAction α)) :
    ∀ server : Server α, server.Ok (fun _ => True) 0 →
      usedBytes.Balanced (fun _ => True) server.kv server.outstanding →
        server.KeptApart actions →
          usedBytes.Balanced (fun _ => True) (server.run actions).kv
            (server.run actions).outstanding := by
  induction actions with
  | nil =>
    intro server _ balanced _
    exact balanced
  | cons action actions ih =>
    intro server ok balanced apart
    obtain ⟨ok', balanced'⟩ := act_counted ok balanced apart.1
    exact ih _ ok' balanced' apart.2

end Several

/-- The queries of one processor, planned and executed in any interleaving.  If every query
is planned when nothing is reserved on the ids of its plan, then the bytes recorded as used
on every stage id are those of the outstanding reservations of all queries. -/
theorem used_eq_reservations_of_apart (kvCapacity : Int) (bytesPerToken : Nat)
    (firstTaskId : TaskId) (actions : List (ServerAction α))
    (apart : Server.KeptApart
      (⟨.init kvCapacity bytesPerToken, firstTaskId, []⟩ : Server α) actions) (s : StageId) :
    (Server.run (⟨.init kvCapacity bytesPerToken, firstTaskId, []⟩ : Server α) actions).kv.used s =
      usedBytes.total s
        (Server.run ⟨.init kvCapacity bytesPerToken, firstTaskId, []⟩ actions).outstanding := by
  apply run_counted actions _ _ _ apart s trivial
  · exact fun _ member => nomatch member
  · intro stage _
    rfl

/-- A query of one stage is executed for `n` steps, then a second one is planned and executed
for `k` steps. -/
def twoQueries (n k : Nat) : List (ServerAction Unit) :=
  .plan ⟨[⟨(), none⟩], fun _ => none, id⟩ [.tuple (passOp Unit)] 0 ::
    (List.replicate n (.execute 0 oldestFirst) ++
      .plan ⟨[⟨(), none⟩], fun _ => none, id⟩ [.tuple (passOp Unit)] 0 ::
        List.replicate k (.execute 1 oldestFirst))

/-- The second query is planned after the first has returned; its task is running. -/
theorem used_eq_reservations_twoQueries :
    Server.KeptApart ⟨.init 100 1, 0, []⟩ (twoQueries 12 5) ∧
      (Server.run ⟨.init 100 1, 0, []⟩ (twoQueries 12 5)).kv.used 1 = 1 ∧
      (Server.run ⟨.init 100 1, 0, []⟩ (twoQueries 12 5)).kv.used 1 =
        usedBytes.total 1 (Server.run ⟨.init 100 1, 0, []⟩ (twoQueries 12 5)).outstanding := by
  have apart : Server.KeptApart ⟨.init 100 1, 0, []⟩ (twoQueries 12 5) := by decide +kernel
  exact ⟨apart, by decide +kernel, used_eq_reservations_of_apart 100 1 0 _ apart 1⟩

/-- The second query is planned while the first one awaits its running task: the task still
holds its reservation of one byte, but the counter of stage 1 is back at zero. -/
theorem second_plan_erases_reservation :
    (Server.run ⟨.init 100 1, 0, []⟩ (twoQueries 5 0)).kv.used 1 = 0 ∧
      usedBytes.total 1 (Server.run ⟨.init 100 1, 0, []⟩ (twoQueries 5 0)).outstanding = 1 := by
  decide +kernel

end Kalypso.Query
