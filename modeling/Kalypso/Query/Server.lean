import Kalypso.Query.Registration
import Kalypso.Query.Ledger

/-!
# Queries that share one memory manager

`PlanExecutor.execute` runs the items of a plan one after the other; a `QueryProcessor`
serves any number of queries, which share the memory manager and the task counter and plan
their stages under the same ids.  An action of the server is the planning of a query, which
runs without a suspension, or one step of a query that is being executed.
-/

set_option autoImplicit false

namespace Kalypso.Query

open Kalypso.Lib

variable {α : Type}

/-- A query in execution: the contexts between two items of the plan, the items still to
come, and the segment that is being executed. -/
structure QueryRun (α : Type) where
  ctxs : List (SemContext α)
  plan : List (PlanItem α)
  segment : Option (List (Stage α) × ExecState α)

structure Server (α : Type) where
  kv : KVMemoryManager
  nextTaskId : TaskId
  queries : List (QueryRun α)

inductive ServerAction (α : Type) where
  /-- `drawn` task ids are used up by the estimates of `flush_segment` -/
  | plan (env : BuildEnv α) (operators : List (BaseOp α)) (drawn : Nat)
  | execute (i : Nat) (choice : Choice)

namespace Server

def planQuery (env : BuildEnv α) (operators : List (BaseOp α)) (drawn : Nat)
    (server : Server α) : Server α :=
  match build env server.kv operators with
  | .ok (plan, kv) =>
      { kv := kv
        nextTaskId := server.nextTaskId + drawn
        queries := server.queries ++ [⟨env.ctxs, plan, none⟩] }
  | .error (.zeroDivision kv) =>
      { server with kv := kv, nextTaskId := server.nextTaskId + drawn }

def stepSegment (i : Nat) (choice : Choice) (query : QueryRun α) (stages : List (Stage α))
    (exec : ExecState α) (server : Server α) : Server α :=
  let m := step stages choice ⟨server.kv, { exec with nextTaskId := server.nextTaskId }⟩
  { kv := m.kv
    nextTaskId := m.exec.nextTaskId
    queries := server.queries.set i { query with segment := some (stages, m.exec) } }

def nextItem (i : Nat) (query : QueryRun α) (server : Server α) : Server α :=
  match query.plan with
  | [] => server
  | .blocking op :: rest =>
      { server with queries := server.queries.set i ⟨op.call query.ctxs, rest, none⟩ }
  | .join op :: rest =>
      { server with queries := server.queries.set i ⟨query.ctxs.flatMap op.call, rest, none⟩ }
  | .segment stages :: rest =>
      let exec := enter stages server.nextTaskId query.ctxs
      { server with
        nextTaskId := exec.nextTaskId
        queries := server.queries.set i ⟨query.ctxs, rest, some (stages, exec)⟩ }

def executeQuery (i : Nat) (choice : Choice) (server : Server α) : Server α :=
  match server.queries[i]? with
  | none => server
  | some query =>
      match query.segment with
      | none => nextItem i query server
      | some (stages, exec) =>
          match exec.control with
          | .returned =>
              { server with queries := server.queries.set i ⟨exec.out, query.plan, none⟩ }
          | _ => stepSegment i choice query stages exec server

def act (server : Server α) : ServerAction α → Server α
  | .plan env operators drawn => server.planQuery env operators drawn
  | .execute i choice => server.executeQuery i choice

def run (server : Server α) (actions : List (ServerAction α)) : Server α :=
  actions.foldl act server

end Server

/-! ## Segments -/

/-- A stage of a plan: registered under an id that `on` selects, with operators that reserve
at least `least` bytes. -/
structure Stage.Ready (on : StageId → Prop) (least : Int) (kv : KVMemoryManager)
    (stage : Stage α) : Prop where
  selected : on stage.stageId
  registered : kv.Registered stage.stageId
  nonempty : stage.operators ≠ []
  reserves : stage.ReservesAtLeast least

structure SegmentOk (on : StageId → Prop) (least : Int) (kv : KVMemoryManager)
    (stages : List (Stage α)) (exec : ExecState α) : Prop where
  ready : ∀ stage ∈ stages, stage.Ready on least kv
  valid : Machine.Valid stages ⟨kv, exec⟩
  runnable : (exec.view stages).Runnable stages
  budgets : ∀ r ∈ (exec.view stages).outstanding, least ≤ r.budget
  counted : (exec.view stages).PendingLeLoad
  ledger : 0 < least → (exec.view stages).Ledger

section Segment

variable {on : StageId → Prop} {least : Int} {kv kv' : KVMemoryManager}
  {stages : List (Stage α)} {exec : ExecState α}

theorem Stage.Ready.extend {stage : Stage α} (ready : stage.Ready on least kv)
    (grows : kv.Extends kv') : stage.Ready on least kv' :=
  ⟨ready.selected, grows _ ready.registered, ready.nonempty, ready.reserves⟩

theorem SegmentOk.extend (ok : SegmentOk on least kv stages exec) (grows : kv.Extends kv')
    {counter : TaskId} (later : exec.nextTaskId ≤ counter) :
    SegmentOk on least kv' stages { exec with nextTaskId := counter } := by
  obtain ⟨layout, sound, control⟩ := ok.valid
  refine ⟨fun stage member => (ok.ready stage member).extend grows, ⟨?_, ?_, control⟩,
    ok.runnable, ok.budgets, ok.counted, ?_⟩
  · exact ⟨layout.aligned, fun stage member => grows _ (layout.registered stage member),
      layout.waiting, layout.running, layout.active, layout.trackers, layout.script⟩
  · exact ⟨sound.ids_nodup,
      fun task member => Nat.lt_of_lt_of_le (sound.ids_lt task member) later,
      sound.unreserved, sound.trackers_lt, sound.finishing_lt⟩
  · intro positive
    have ledger := ok.ledger positive
    exact ⟨ledger.once, ledger.balance,
      fun r member => Nat.lt_of_lt_of_le (ledger.known r member) later, ledger.running⟩

theorem SegmentOk.step (ok : SegmentOk on least kv stages exec) (choice : Choice) :
    SegmentOk on least (step stages choice ⟨kv, exec⟩).kv stages
      (step stages choice ⟨kv, exec⟩).exec := by
  have effect := (ok.valid.refines choice).1
  have valid := ok.valid.step choice
  refine ⟨?_, valid, ?_, ?_, ?_, ?_⟩
  · intro stage member
    have ready := ok.ready stage member
    exact ⟨ready.selected, valid.layout.registered stage member, ready.nonempty,
      ready.reserves⟩
  · exact effect.runnable (fun stage member => (ok.ready stage member).nonempty) ok.runnable
  · exact effect.transfer.budgets (fun stage member => (ok.ready stage member).reserves)
      ok.runnable ok.budgets
  · exact effect.pendingLeLoad ok.valid.sound ok.counted
  · intro positive
    exact effect.ledger ok.valid.sound
      (fun r member => lt_of_lt_of_le positive (ok.budgets r member)) (ok.ledger positive)

theorem initial_runnable (nonempty : ∀ stage ∈ stages, stage.operators ≠ [])
    {firstTaskId : TaskId} {ctxs : List (SemContext α)} {roots : List (Task α)}
    (fresh : Children firstTaskId [] (rootPositions stages ctxs) roots) :
    (View.initial firstTaskId roots).Runnable stages := by
  intro task member stage found
  have position : task.position ∈ rootPositions stages ctxs := by
    rw [← fresh.positions]
    exact List.mem_map_of_mem (Multiset.mem_coe.mp member)
  have atFirst : task.opIndex = 0 := by
    unfold rootPositions at position
    split at position
    · cases position
    · obtain ⟨ctx, -, same⟩ := List.mem_map.mp position
      exact (congrArg Position.opIndex same).symm
  rw [atFirst]
  exact List.length_pos_iff.mpr (nonempty stage (List.mem_of_getElem? found))

theorem enter_ok (ready : ∀ stage ∈ stages, stage.Ready on least kv) (firstTaskId : TaskId)
    (ctxs : List (SemContext α)) :
    SegmentOk on least kv stages (enter stages firstTaskId ctxs) ∧
      ((enter stages firstTaskId ctxs).view stages).outstanding = 0 := by
  have registered : ∀ stage ∈ stages, kv.Registered stage.stageId :=
    fun stage member => (ready stage member).registered
  obtain ⟨-, roots, fresh, viewEq⟩ := enter_spec registered firstTaskId ctxs
  have nothing : (View.initial firstTaskId roots : View α).outstanding = 0 := rfl
  refine ⟨⟨ready, enter_valid registered firstTaskId ctxs, ?_, ?_, ?_, ?_⟩, ?_⟩
  · rw [viewEq]
    exact initial_runnable (fun stage member => (ready stage member).nonempty) fresh
  · rw [viewEq, nothing]
    exact fun r member => absurd member (Multiset.notMem_zero r)
  · rw [viewEq]
    intro _ k tracker found
    simp [View.initial] at found
  · intro _
    rw [viewEq]
    exact ⟨List.nodup_nil, rfl, fun _ member => absurd member List.not_mem_nil,
      fun _ member => absurd member List.not_mem_nil⟩
  · rw [viewEq, nothing]

end Segment

/-! ## The server -/

def QueryRun.outstanding (query : QueryRun α) : Multiset Reservation :=
  match query.segment with
  | none => 0
  | some (stages, exec) => (exec.view stages).outstanding

def Server.outstanding (server : Server α) : Multiset Reservation :=
  (server.queries.map QueryRun.outstanding).sum

structure QueryRun.Ok (on : StageId → Prop) (least : Int) (kv : KVMemoryManager)
    (counter : TaskId) (query : QueryRun α) : Prop where
  plan : ∀ stages, .segment stages ∈ query.plan → ∀ stage ∈ stages, stage.Ready on least kv
  segment : ∀ stages exec, query.segment = some (stages, exec) →
    SegmentOk on least kv stages exec ∧ exec.nextTaskId ≤ counter

def Server.Ok (on : StageId → Prop) (least : Int) (server : Server α) : Prop :=
  ∀ query ∈ server.queries, query.Ok on least server.kv server.nextTaskId

section Server

variable {on : StageId → Prop} {least : Int} {kv kv' : KVMemoryManager} {server : Server α}

variable {query : QueryRun α} {stages : List (Stage α)}

theorem QueryRun.Ok.extend {counter counter' : TaskId} (ok : query.Ok on least kv counter)
    (grows : kv.Extends kv') (later : counter ≤ counter') : query.Ok on least kv' counter' := by
  refine ⟨fun stages member stage isStage => (ok.plan stages member stage isStage).extend grows,
    ?_⟩
  intro stages exec running
  obtain ⟨segmentOk, below⟩ := ok.segment stages exec running
  exact ⟨segmentOk.extend grows (Nat.le_refl exec.nextTaskId), Nat.le_trans below later⟩

theorem Server.Ok.set (ok : server.Ok on least) (i : Nat) {counter : TaskId}
    (grows : server.kv.Extends kv') (later : server.nextTaskId ≤ counter)
    (queryOk : query.Ok on least kv' counter) :
    Server.Ok on least ⟨kv', counter, server.queries.set i query⟩ := by
  intro other member
  rcases List.mem_or_eq_of_mem_set member with old | rfl
  · exact (ok other old).extend grows later
  · exact queryOk

theorem QueryRun.outstanding_of_segment {exec : ExecState α}
    (running : query.segment = some (stages, exec)) :
    query.outstanding = (exec.view stages).outstanding := by
  simp [QueryRun.outstanding, running]

/-- What one step of a query does to the reservations of all queries: nothing, or one entry
in its own ledger. -/
def Server.Moves (server server' : Server α) : Prop :=
  (server'.kv = server.kv ∧ server'.outstanding = server.outstanding) ∨
  ∃ (stages : List (Stage α)) (v v' : View α) (others : Multiset Reservation),
    Transfer stages server.kv v server'.kv v' ∧ server.outstanding = v.outstanding + others ∧
      server'.outstanding = v'.outstanding + others

/-- A query with nothing outstanding is replaced by another such one. -/
theorem Server.moves_idle {i : Nat} {query query' : QueryRun α} {counter : TaskId}
    (present : server.queries[i]? = some query) (before : query.outstanding = 0)
    (after : query'.outstanding = 0) :
    server.Moves ⟨server.kv, counter, server.queries.set i query'⟩ := by
  left
  refine ⟨rfl, ?_⟩
  obtain ⟨others, total, replaced⟩ :=
    exists_sum_map_set QueryRun.outstanding server.queries i query present
  rw [Server.outstanding, Server.outstanding, total, replaced, before, after]

theorem enter_nextTaskId_le (registered : ∀ stage ∈ stages, kv.Registered stage.stageId)
    (firstTaskId : TaskId) (ctxs : List (SemContext α)) :
    firstTaskId ≤ (enter stages firstTaskId ctxs).nextTaskId := by
  obtain ⟨-, roots, -, viewEq⟩ := enter_spec registered firstTaskId ctxs
  have counted : (enter stages firstTaskId ctxs).nextTaskId = firstTaskId + roots.length :=
    congrArg View.nextTaskId viewEq
  rw [counted]
  exact Nat.le_add_right _ _

theorem Server.Ok.nextItem (ok : server.Ok on least) {i : Nat}
    (present : server.queries[i]? = some query) (idle : query.segment = none) :
    (server.nextItem i query).Ok on least ∧ server.Moves (server.nextItem i query) := by
  have queryOk := ok query (List.mem_of_getElem? present)
  have nothing : query.outstanding = 0 := by simp [QueryRun.outstanding, idle]
  have remaining : ∀ (item : PlanItem α) (rest : List (PlanItem α)), query.plan = item :: rest →
      ∀ ctxs, (⟨ctxs, rest, none⟩ : QueryRun α).Ok on least server.kv server.nextTaskId := by
    intro item rest plan ctxs
    refine ⟨?_, fun _ _ running => nomatch running⟩
    intro stages member
    exact queryOk.plan stages (plan ▸ List.mem_cons_of_mem _ member)
  unfold Server.nextItem
  split
  · exact ⟨ok, Or.inl ⟨rfl, rfl⟩⟩
  · rename_i op rest plan
    exact ⟨ok.set i (extends_refl _) (Nat.le_refl _) (remaining _ rest plan _),
      Server.moves_idle present nothing rfl⟩
  · rename_i op rest plan
    exact ⟨ok.set i (extends_refl _) (Nat.le_refl _) (remaining _ rest plan _),
      Server.moves_idle present nothing rfl⟩
  · rename_i stages rest plan
    have ready := queryOk.plan stages (plan ▸ List.mem_cons_self ..)
    obtain ⟨segmentOk, entered⟩ := enter_ok ready server.nextTaskId query.ctxs
    have later := enter_nextTaskId_le (fun stage member => (ready stage member).registered)
      server.nextTaskId query.ctxs
    refine ⟨ok.set i (extends_refl _) later ⟨?_, ?_⟩, Server.moves_idle present nothing entered⟩
    · exact ((remaining _ rest plan query.ctxs).extend (extends_refl _) later).plan
    · intro stages' exec' running
      cases running
      exact ⟨segmentOk, Nat.le_refl _⟩

theorem Server.Ok.stepSegment (ok : server.Ok on least) {i : Nat}
    (present : server.queries[i]? = some query) {exec : ExecState α}
    (running : query.segment = some (stages, exec)) (choice : Choice) :
    (server.stepSegment i choice query stages exec).Ok on least ∧
      server.Moves (server.stepSegment i choice query stages exec) := by
  have queryOk := ok query (List.mem_of_getElem? present)
  obtain ⟨segmentOk, below⟩ := queryOk.segment stages exec running
  have current := segmentOk.extend (extends_refl _) below
  have effect := (current.valid.refines choice).1
  have grows := current.valid.extends choice
  have later := effect.nextTaskId_le
  refine ⟨ok.set i grows later ⟨?_, ?_⟩, Or.inr ?_⟩
  · exact (queryOk.extend grows later).plan
  · intro stages' exec' running'
    cases running'
    exact ⟨current.step choice, Nat.le_refl _⟩
  · obtain ⟨others, total, replaced⟩ :=
      exists_sum_map_set QueryRun.outstanding server.queries i query present
    rw [QueryRun.outstanding_of_segment running] at total
    exact ⟨stages, _, _, others, effect.transfer, total, replaced _⟩

theorem Server.Ok.execute (ok : server.Ok on least) (i : Nat) (choice : Choice) :
    (server.executeQuery i choice).Ok on least ∧
      server.Moves (server.executeQuery i choice) := by
  unfold Server.executeQuery
  split
  · exact ⟨ok, Or.inl ⟨rfl, rfl⟩⟩
  · rename_i query present
    have queryOk := ok query (List.mem_of_getElem? present)
    split
    · rename_i idle
      exact ok.nextItem present idle
    · rename_i stages exec running
      split
      · rename_i returned
        obtain ⟨segmentOk, -⟩ := queryOk.segment stages exec running
        have nothing := outstanding_of_returned segmentOk.valid segmentOk.counted returned
        rw [← QueryRun.outstanding_of_segment running] at nothing
        have nextOk : (⟨exec.out, query.plan, none⟩ : QueryRun α).Ok on least server.kv
            server.nextTaskId := ⟨queryOk.plan, fun _ _ entered => nomatch entered⟩
        exact ⟨ok.set i (extends_refl _) (Nat.le_refl _) nextOk,
          Server.moves_idle present nothing rfl⟩
      · exact ok.stepSegment present running choice

theorem Server.Ok.budgets (ok : server.Ok on least) :
    ∀ r ∈ server.outstanding, least ≤ r.budget := by
  intro r member
  obtain ⟨query, isQuery, isIts⟩ := (mem_sum_map _ _ _).mp member
  cases running : query.segment with
  | none =>
    rw [QueryRun.outstanding, running] at isIts
    cases Multiset.notMem_zero r isIts
  | some segment =>
    obtain ⟨stages, exec⟩ := segment
    rw [QueryRun.outstanding_of_segment running] at isIts
    exact ((ok query isQuery).segment stages exec running).1.budgets r isIts

theorem Server.Moves.balanced {server' : Server α} {c : Counter}
    (moves : server.Moves server') (light : ∀ r ∈ server.outstanding, c.Light r)
    (balanced : c.Balanced on server.kv server.outstanding) :
    c.Balanced on server'.kv server'.outstanding := by
  rcases moves with ⟨sameKv, same⟩ | ⟨stages, v, v', others, transfer, before, after⟩
  · rw [sameKv, same]
    exact balanced
  · rw [before] at balanced light
    rw [after]
    exact transfer.balanced balanced light

/-- A build registers ids of its plan and leaves the reservations alone. -/
theorem Server.planQuery_resets (env : BuildEnv α) (operators : List (BaseOp α)) (drawn : Nat)
    (server : Server α) :
    (server.planQuery env operators drawn).outstanding = server.outstanding ∧
      ∃ ids, server.kv.Resets (server.planQuery env operators drawn).kv ids ∧
        ∀ s ∈ ids, 1 ≤ s ∧ s ≤ stageCount operators := by
  unfold Server.planQuery
  split
  · rename_i plan kv built
    obtain ⟨resets, -, -⟩ := build_ok (P := fun _ => True) (fun _ _ => trivial) built
    refine ⟨by simp [Server.outstanding, QueryRun.outstanding], _, resets, ?_⟩
    intro s member
    rw [List.mem_range'_1] at member
    exact ⟨member.1, Nat.le_of_lt_succ (Nat.lt_of_lt_of_eq member.2 (Nat.add_comm 1 _))⟩
  · rename_i kv raised
    exact ⟨rfl, build_error raised⟩

theorem Server.Ok.plan (ok : server.Ok on least) (env : BuildEnv α)
    (operators : List (BaseOp α)) (drawn : Nat) {P : TupleOp α → Prop}
    (fine : ∀ tuple, .tuple tuple ∈ operators → P tuple)
    (selects : ∀ s, 1 ≤ s → s ≤ stageCount operators → on s)
    (reserves : ∀ stage : Stage α, stage.Built P server.kv.bytesPerToken →
      stage.ReservesAtLeast least) :
    (server.planQuery env operators drawn).Ok on least := by
  unfold Server.planQuery
  split
  · rename_i plan kv built
    obtain ⟨resets, ids, stagesBuilt⟩ := build_ok fine built
    intro query member
    rcases List.mem_append.mp member with old | new
    · exact (ok query old).extend resets.grows (Nat.le_add_right _ _)
    · rw [List.mem_singleton.mp new]
      refine ⟨?_, fun _ _ running => nomatch running⟩
      intro stages isSegment stage isStage
      have stageBuilt := stagesBuilt stages isSegment stage isStage
      have inRange : stage.stageId ∈ List.range' 1 (stageCount operators) := by
        rw [← ids]
        exact List.mem_flatMap.mpr ⟨_, isSegment, List.mem_map_of_mem isStage⟩
      have bounds := List.mem_range'_1.mp inRange
      refine ⟨selects _ bounds.1 ?_, resets.registered _ inRange, stageBuilt.nonempty,
        reserves stage stageBuilt⟩
      exact Nat.le_of_lt_succ (Nat.lt_of_lt_of_eq bounds.2 (Nat.add_comm 1 _))
  · rename_i kv raised
    obtain ⟨ids, resets, -⟩ := build_error raised
    intro query member
    exact (ok query member).extend resets.grows (Nat.le_add_right _ _)

end Server

end Kalypso.Query
