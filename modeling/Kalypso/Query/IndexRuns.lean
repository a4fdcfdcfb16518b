import Kalypso.Query.IndexedJoin

/-!
# Runs of the retrieval service

Operators are created and destroyed, call the service, and other clients send requests of their
own.  The requests of one call may have any other requests between them.
-/

set_option autoImplicit false

namespace Kalypso.Query

open Kalypso.Lib

inductive CallPhase (D S : Type) where
  | post (next : Post)
  | returned (rows : List (Row D × S))
  | raised

variable {D L V S : Type} {retriever : Retriever L (Row D) V S}

namespace IndexedOperator

def receive (op : IndexedOperator D S) : Post → Option (Reply (Row D) S) → CallPhase D S
  | _, none => .raised
  | .query, some (.results rows) => .returned rows
  | .query, some _ => if op.rightTable.isEmpty then .post .retry else .post .buildIndex
  | .buildIndex, some (.indexed _) => .post .retry
  | .buildIndex, some _ => .raised
  | .retry, some (.results rows) => .returned rows
  | .retry, some _ => .raised

variable [DecidableEq D] [LinearOrder S]

def round (retriever : Retriever L (Row D) V S) (op : IndexedOperator D S) (left : L)
    (net : Post → Delivery) :
    CallPhase D S × VectorDBService (Row D) V → CallPhase D S × VectorDBService (Row D) V
  | (.post next, service) =>
      let (reply, service) := op.postIcp retriever left next (net next) service
      (op.receive next reply, service)
  | finished => finished

/-- How a call has ended. -/
def ended : Option (List (Row D × S)) × VectorDBService (Row D) V →
    CallPhase D S × VectorDBService (Row D) V
  | (some rows, service) => (.returned rows, service)
  | (none, service) => (.raised, service)

section

variable (op : IndexedOperator D S) (left : L) (net : Post → Delivery)
  (service : VectorDBService (Row D) V)

theorem round_retry :
    op.round retriever left net (.post .retry, service) =
      ended (match op.postIcp retriever left .retry (net .retry) service with
        | (some (.results rows), service) => (some rows, service)
        | (_, service) => (none, service)) := by
  simp only [round]
  rcases op.postIcp retriever left .retry (net .retry) service with ⟨_ | _ | _ | _ | _, service⟩
  all_goals rfl

theorem round_ended (result : Option (List (Row D × S)) × VectorDBService (Row D) V) :
    op.round retriever left net (ended result) = ended result := by
  obtain ⟨_ | rows, service⟩ := result
  all_goals rfl

theorem rounds_after_failure :
    op.round retriever left net (op.round retriever left net
        (if op.rightTable.isEmpty then .post .retry else .post .buildIndex, service)) =
      ended (match op.buildRemoteIndex retriever left (net .buildIndex) service with
        | (false, service) => (none, service)
        | (true, service) =>
          match op.postIcp retriever left .retry (net .retry) service with
          | (some (.results rows), service) => (some rows, service)
          | (_, service) => (none, service)) := by
  unfold buildRemoteIndex
  split
  · rw [round_retry, round_ended]
  · simp only [round]
    rcases op.postIcp retriever left .buildIndex (net .buildIndex) service with
      ⟨_ | _ | _ | _ | _, service⟩
    case some.indexed => exact round_retry ..
    all_goals rfl

/-- Without other requests between them, the requests of a call are those of `_query_retrieval`. -/
theorem rounds_eq_queryRetrieval :
    (op.round retriever left net)^[3] (.post .query, service) =
      ended (op.queryRetrieval retriever left net service) := by
  change op.round retriever left net (op.round retriever left net
    (op.round retriever left net (.post .query, service))) = _
  unfold queryRetrieval
  rw [round]
  rcases op.postIcp retriever left .query (net .query) service with ⟨_ | _ | _ | _ | _, service⟩
  case none | some.results => rfl
  -- a response that is not ok leads to the other requests
  all_goals exact rounds_after_failure ..

end

end IndexedOperator

/-! ## Operators, calls and other clients -/

structure IndexCall (D L S : Type) where
  objectId : Nat
  operator : IndexedOperator D S
  left : L
  phase : CallPhase D S

structure IndexState (D L V S : Type) where
  service : VectorDBService (Row D) V
  /-- the operators that exist, by `id(self)` -/
  operators : Dict Nat (IndexedOperator D S)
  calls : Dict Nat (IndexCall D L S)

inductive IndexOp (D L S : Type) where
  | create (objectId : Nat) (rightTable : Option (List D)) (topK : Option Nat)
      (lowThreshold highThreshold : Option S) (cpId : Option String) (position : Int)
  | destroy (objectId : Nat)
  | start (callId objectId : Nat) (left : L)
  | post (callId : Nat) (delivery : Delivery)
  /-- a request of another client -/
  | request (request : ServiceRequest L (Row D) S)

def CallPhase.isRunning : CallPhase D S → Bool
  | .post _ => true
  | .returned _ => false
  | .raised => false

namespace IndexState

def init : IndexState D L V S := ⟨.empty, .empty, .empty⟩

variable [DecidableEq D] [LinearOrder S]

/-- One step; `none` if it cannot happen. -/
def step (retriever : Retriever L (Row D) V S) (s : IndexState D L V S) :
    IndexOp D L S → Option (IndexState D L V S)
  | .create objectId rightTable topK lowThreshold highThreshold cpId position =>
      match s.operators.get? objectId with
      | some _ => none
      | none =>
          let op := .init rightTable topK lowThreshold highThreshold cpId position objectId
          some { s with operators := s.operators.set objectId op }
  | .destroy objectId =>
      -- a running call refers to its operator
      if s.calls.values.any fun call => call.objectId == objectId && call.phase.isRunning then none
      else some { s with operators := s.operators.erase objectId }
  | .start callId objectId left =>
      match s.operators.get? objectId, s.calls.get? callId with
      | some op, none =>
          some { s with calls := s.calls.set callId ⟨objectId, op, left, .post .query⟩ }
      | _, _ => none
  | .post callId delivery =>
      match s.calls.get? callId with
      | some ⟨objectId, op, left, .post next⟩ =>
          let (reply, service) := op.postIcp retriever left next delivery s.service
          some { s with
            service := service
            calls := s.calls.set callId ⟨objectId, op, left, op.receive next reply⟩ }
      | _ => none
  | .request request => some { s with service := (s.service.serve retriever request).2 }

def Step (retriever : Retriever L (Row D) V S) (s : IndexState D L V S) (op : IndexOp D L S)
    (s' : IndexState D L V S) : Prop :=
  s.step retriever op = some s'

def TableOf (s : IndexState D L V S) (cpId : String) (rows : List (Row D)) : Prop :=
  ∀ objectId op, s.operators.get? objectId = some op → op.cpId = cpId → op.indexedRows = rows

/-- An id stands for one table: an operator is created only with an id for which the service has
no index but of its own rows, and for which no other operator has other rows; and nobody else
builds an index of other rows under the id of an operator that exists. -/
def KeepsTable (s : IndexState D L V S) : IndexOp D L S → Prop
  | .create objectId rightTable topK lowThreshold highThreshold cpId position =>
      let op := IndexedOperator.init rightTable topK lowThreshold highThreshold cpId
        position objectId
      (∀ vs, s.service.cache.get? op.cpId = some vs → vs.metadata = op.indexedRows) ∧
        s.TableOf op.cpId op.indexedRows
  | .request request => ∀ cpId table, request.table = some (cpId, table) → s.TableOf cpId table
  | .destroy _ => True
  | .start _ _ _ => True
  | .post _ _ => True

def KeepingStep (retriever : Retriever L (Row D) V S) (s : IndexState D L V S)
    (op : IndexOp D L S) (s' : IndexState D L V S) : Prop :=
  Step retriever s op s' ∧ s.KeepsTable op

/-! ## The invariant -/

structure Inv (s : IndexState D L V S) : Prop where
  index : ∀ objectId op vs, s.operators.get? objectId = some op →
    s.service.cache.get? op.cpId = some vs → vs.metadata = op.indexedRows
  shared : ∀ objectId op, s.operators.get? objectId = some op → s.TableOf op.cpId op.indexedRows
  running : ∀ callId call, s.calls.get? callId = some call → call.phase.isRunning = true →
    s.operators.get? call.objectId = some call.operator
  own : ∀ callId call rows, s.calls.get? callId = some call → call.phase = .returned rows →
    ∀ row ∈ rows, row.1 ∈ call.operator.indexedRows

variable {s : IndexState D L V S}

variable {op : IndexedOperator D S} {objectId : Nat}

/-- A request that brings no foreign table under the id of an operator leaves the right indexes. -/
theorem Inv.index_serve (inv : s.Inv) {request : ServiceRequest L (Row D) S}
    (keeps : ∀ cpId table, request.table = some (cpId, table) → s.TableOf cpId table)
    {vs : FaissVS (Row D) V} (present : s.operators.get? objectId = some op)
    (held : (s.service.serve retriever request).2.cache.get? op.cpId = some vs) :
    vs.metadata = op.indexedRows := by
  cases VectorDBService.serve_cache _ _ held with
  | inl before => exact inv.index objectId op vs present before
  | inr new =>
    obtain ⟨table, sent, index⟩ := new
    subst index
    exact (keeps _ _ sent objectId op present rfl).symm

section

omit [DecidableEq D] [LinearOrder S]

theorem inv_init : (init : IndexState D L V S).Inv where
  index := by
    intro objectId op vs present
    cases present
  shared := by
    intro objectId op present
    cases present
  running := by
    intro callId call present
    cases present
  own := by
    intro callId call rows present
    cases present

theorem Inv.create (inv : s.Inv) (absent : s.operators.get? objectId = none)
    (indexed : ∀ vs, s.service.cache.get? op.cpId = some vs → vs.metadata = op.indexedRows)
    (table : s.TableOf op.cpId op.indexedRows) :
    ({ s with operators := s.operators.set objectId op } : IndexState D L V S).Inv where
  index := by
    intro id other vs present held
    exact Dict.forall_set indexed
      (fun id other present vs => inv.index id other vs present) id other
      present vs held
  shared := by
    intro id other present id' other' present' sameId
    rw [Dict.get?_set] at present present'
    split at present
    · cases present
      split at present'
      · cases present'
        rfl
      · exact table id' other' present' sameId
    · split at present'
      · cases present'
        exact (table id other present sameId.symm).symm
      · exact inv.shared id other present id' other' present' sameId
  running := by
    intro callId call present isRunning
    have before := inv.running callId call present isRunning
    have different : call.objectId ≠ objectId := by
      intro same
      rw [same, absent] at before
      cases before
    exact (Dict.get?_set_of_ne _ _ different).trans before
  own := inv.own

theorem Inv.destroy (inv : s.Inv)
    (unused : s.calls.values.any (fun call => call.objectId == objectId && call.phase.isRunning) ≠
      true) :
    ({ s with operators := s.operators.erase objectId } : IndexState D L V S).Inv where
  index := by
    intro id op vs present
    exact inv.index id op vs (Dict.get?_of_erase present)
  shared := by
    intro id op present id' other present'
    exact inv.shared id op (Dict.get?_of_erase present) id' other (Dict.get?_of_erase present')
  running := by
    intro callId call present isRunning
    have different : call.objectId ≠ objectId := by
      intro same
      refine unused (List.any_eq_true.mpr ⟨call, ?_, ?_⟩)
      · exact List.mem_map_of_mem ((Dict.get?_eq_some_iff _ _ _).mp present)
      · simp [same, isRunning]
    exact (Dict.get?_erase_of_ne _ different).trans (inv.running callId call present isRunning)
  own := inv.own

theorem Inv.start (inv : s.Inv) {callId objectId : Nat} (left : L)
    (present : s.operators.get? objectId = some op) :
    ({ s with calls := s.calls.set callId ⟨objectId, op, left, .post .query⟩ } :
      IndexState D L V S).Inv where
  index := inv.index
  shared := inv.shared
  running := Dict.forall_set (fun _ => present) inv.running
  own := by
    intro id call rows found
    exact Dict.forall_set (fun _ returned => by cases returned)
      (fun id call found rows => inv.own id call rows found) id call found rows

theorem receive_returned {next : Post} {reply : Option (Reply (Row D) S)} {rows : List (Row D × S)}
    (returned : op.receive next reply = .returned rows) :
    next ≠ .buildIndex ∧ reply = some (.results rows) := by
  unfold IndexedOperator.receive at returned
  split at returned
  · cases returned
  · cases returned
    exact ⟨by decide, rfl⟩
  · split at returned <;> cases returned
  · cases returned
  · cases returned
  · cases returned
    exact ⟨by decide, rfl⟩
  · cases returned

end

/-- The rows of an answer to an operator are those of the index then kept for its id. -/
theorem postIcp_rows {left : L} {next : Post} {delivery : Delivery}
    {service : VectorDBService (Row D) V} {rows : List (Row D × S)} (queries : next ≠ .buildIndex)
    (answer : (op.postIcp retriever left next delivery service).1 = some (.results rows)) :
    ∃ vs, (op.postIcp retriever left next delivery service).2.cache.get? op.cpId = some vs ∧
      ∀ row ∈ rows, row.1 ∈ vs.metadata := by
  have request : op.request left next = .query (op.payload left) := by
    cases next with
    | query => rfl
    | buildIndex => exact absurd rfl queries
    | retry => rfl
  unfold IndexedOperator.postIcp at answer ⊢
  rw [request] at answer ⊢
  cases delivery with
  | answered =>
    have found := VectorDBService.serve_rows (Option.some.inj answer)
    rw [IndexedOperator.payload_cpId] at found
    exact found
  | lost => cases answer
  | unanswered => cases answer

theorem Inv.post (inv : s.Inv) {callId objectId : Nat} {left : L} {next : Post}
    (delivery : Delivery) (found : s.calls.get? callId = some ⟨objectId, op, left, .post next⟩) :
    ({ s with
        service := (op.postIcp retriever left next delivery s.service).2
        calls := s.calls.set callId ⟨objectId, op, left,
          op.receive next (op.postIcp retriever left next delivery s.service).1⟩ } :
      IndexState D L V S).Inv := by
  have present := inv.running callId _ found rfl
  have index : ∀ id other vs, s.operators.get? id = some other →
      (op.postIcp retriever left next delivery s.service).2.cache.get? other.cpId = some vs →
      vs.metadata = other.indexedRows := by
    intro id other vs atId held
    have keeps : ∀ cpId table, (op.request left next).table = some (cpId, table) →
        s.TableOf cpId table := by
      intro cpId table sent
      obtain ⟨_, sameId, sameRows⟩ := IndexedOperator.request_table sent
      rw [sameId, sameRows]
      exact inv.shared objectId op present
    cases delivery with
    | answered | unanswered => exact inv.index_serve keeps atId held
    | lost => exact inv.index id other vs atId held
  refine ⟨index, inv.shared, Dict.forall_set (fun _ => present) inv.running, ?_⟩
  intro id call rows atId returned row member
  rw [Dict.get?_set] at atId
  split at atId
  · cases atId
    obtain ⟨queries, answer⟩ := receive_returned returned
    obtain ⟨vs, held, listed⟩ := postIcp_rows queries answer
    have ownRows := index objectId op vs present held
    exact ownRows ▸ listed row member
  · exact inv.own id call rows atId returned row member

theorem Inv.step {s' : IndexState D L V S} (inv : s.Inv) {op : IndexOp D L S}
    (happens : KeepingStep retriever s op s') : s'.Inv := by
  obtain ⟨happens, keeps⟩ := happens
  unfold Step IndexState.step at happens
  cases op with
  | create objectId rightTable topK lowThreshold highThreshold cpId position =>
    simp only at happens
    split at happens
    · cases happens
    · rename_i absent
      cases happens
      exact inv.create absent keeps.1 keeps.2
  | destroy objectId =>
    simp only at happens
    split at happens
    · cases happens
    · rename_i unused
      cases happens
      exact inv.destroy unused
  | start callId objectId left =>
    simp only at happens
    split at happens
    · rename_i present absent
      cases happens
      exact inv.start left present
    · cases happens
  | post callId delivery =>
    simp only at happens
    split at happens
    · rename_i found
      cases happens
      exact inv.post delivery found
    · cases happens
  | request request =>
    cases happens
    exact ⟨fun id other vs atId held => inv.index_serve keeps atId held, inv.shared, inv.running,
      inv.own⟩

/-- If an id stands for one table, every row returned to an operator is a row of its own table. -/
theorem returned_rows_own {ops : List (IndexOp D L S)}
    (run : Trace (KeepingStep retriever) init ops s) {callId : Nat} {call : IndexCall D L S}
    (present : s.calls.get? callId = some call) {rows : List (Row D × S)}
    (returned : call.phase = .returned rows) : ∀ row ∈ rows, row.1 ∈ call.operator.indexedRows := by
  have inv : s.Inv := run.invariant (fun _ _ _ happens held => held.step happens) inv_init
  exact inv.own callId call rows present returned

/-! ## An id for two tables -/

/-- Whether a call has returned a row that is not in the table of its operator. -/
def returnsForeignRow (call : IndexCall D L S) : Bool :=
  match call.phase with
  | .returned rows => rows.any fun row => row.1 ∉ call.operator.indexedRows
  | _ => false

def wholeCall (callId objectId : Nat) : List (IndexOp String Unit Int) :=
  [.start callId objectId (), .post callId .answered, .post callId .answered,
    .post callId .answered]

/-- An operator with the default id for its place in the plan, and `top_k` rows. -/
def createWords (objectId : Nat) (rightTable : List String) : IndexOp String Unit Int :=
  .create objectId (some rightTable) (some 5) none none none 0

/-- An operator is destroyed and another takes its place in memory, and so its default id.  The
service still has the index of the first, and answers the second from it. -/
theorem returned_row_foreign :
    ∃ ops s, Trace (Step wordRetriever) init ops s ∧
      ∃ callId call rows, s.calls.get? callId = some call ∧ call.phase = .returned rows ∧
        ∃ row ∈ rows, row.1 ∉ call.operator.indexedRows := by
  have reached : ((([createWords 1 ["same"]] ++ wholeCall 1 1 ++
      [.destroy 1, createWords 1 ["far"], .start 2 1 (), .post 2 .answered]).foldlM
        (step wordRetriever) init).bind fun s => s.calls.get? 2).any returnsForeignRow = true := by
    decide +kernel
  obtain ⟨call, found, foreign⟩ := (Option.any_eq_true ..).mp reached
  obtain ⟨s, runs, found⟩ := Option.bind_eq_some_iff.mp found
  refine ⟨_, s, Trace.of_foldlM runs, 2, call, ?_⟩
  unfold returnsForeignRow at foreign
  split at foreign
  · rename_i rows returned
    obtain ⟨row, member, outside⟩ := List.any_eq_true.mp foreign
    exact ⟨rows, found, returned, row, member, of_decide_eq_true outside⟩
  · cases foreign

def IsCall : IndexOp D L S → Prop
  | .start _ _ _ => True
  | .post _ _ => True
  | _ => False

omit [DecidableEq D] [LinearOrder S] in
theorem keepsTable_of_isCall {op : IndexOp D L S} (isCall : IsCall op) (s : IndexState D L V S) :
    s.KeepsTable op := by
  cases op with
  | start callId objectId left => exact trivial
  | post callId delivery => exact trivial
  | create _ _ _ _ _ _ _ => exact isCall.elim
  | destroy _ => exact isCall.elim
  | request _ => exact isCall.elim

theorem returned_rows_own_single :
    ∃ ops s, Trace (KeepingStep wordRetriever) init ops s ∧
      ∃ callId call rows, s.calls.get? callId = some call ∧ call.phase = .returned rows ∧
        rows ≠ [] ∧ ∀ row ∈ rows, row.1 ∈ call.operator.indexedRows := by
  have reached : (((createWords 1 ["same"] :: wholeCall 1 1).foldlM (step wordRetriever) init).bind
      fun s => s.calls.get? 1).any (fun call => match call.phase with
        | .returned rows => !rows.isEmpty
        | _ => false) = true := by
    decide +kernel
  obtain ⟨call, found, nonempty⟩ := (Option.any_eq_true ..).mp reached
  obtain ⟨s, runs, found⟩ := Option.bind_eq_some_iff.mp found
  have fresh : (init : IndexState String Unit String Int).KeepsTable (createWords 1 ["same"]) := by
    constructor
    · intro vs held
      cases held
    · intro id op present
      cases present
  have run : Trace (KeepingStep wordRetriever) init
      (createWords 1 ["same"] :: wholeCall 1 1) s := by
    cases Trace.of_foldlM runs with
    | cons create calls =>
      refine .cons ⟨create, fresh⟩ ?_
      refine calls.mono_of (A := IsCall) ?_
        fun s op s' isCall happens => ⟨happens, keepsTable_of_isCall isCall s⟩
      simp [wholeCall, IsCall]
  split at nonempty
  · rename_i rows returned
    refine ⟨_, s, run, 1, call, rows, found, returned, ?_, returned_rows_own run found returned⟩
    simpa using nonempty
  · cases nonempty

end IndexState

end Kalypso.Query
