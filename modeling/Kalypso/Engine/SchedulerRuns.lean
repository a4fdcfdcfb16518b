import Kalypso.Engine.UpdateMoves

/-!
# Runs of the scheduler

The engine core adds requests, schedules them, processes the output of a step, finishes or aborts
requests, and pins and unpins them, in any order and without a KV connector.  A call that raises
ends the run.  Every call is a run of moves, so that the invariant of the queues holds in every
state of a run.
-/

set_option autoImplicit false

namespace Kalypso.Engine

open Kalypso.Lib

inductive SchedulerOp where
  | add (request : EngineCoreRequest)
  | schedule
  | update (scheduled : SchedulerOutput) (results : ModelRunnerOutput)
  | finish (ids : List Nat) (finishedStatus : RequestStatus)
  | pin (id : Nat)
  | unpin (id : Nat)
  /-- the grammar of a request has been compiled -/
  | compileGrammar (id : Nat)
  | updateDraftTokenIds (id : Nat) (specTokenIds : List Nat)

def SchedulerOp.Allows {H : Type} : SchedulerOp → LifecycleOp H → Prop
  | .add request, op => ∃ added : Request H, op = .add added ∧ added.requestId = request.requestId
  | .schedule, op => op.IsScheduling
  | .update scheduled _, op => op.IsResultOf scheduled.numScheduledTokens.keys
  | .finish ids _, op => op.IsResultOf ids
  | .pin id, op => op = .pin id
  | .unpin id, op => op = .unpin id
  | .compileGrammar _, op | .updateDraftTokenIds _ _, op => op.IsResultOf []

namespace Lifecycle

variable {H : Type} [DecidableEq H] {hasher : Option (BlockHasher H)} {s s' : Lifecycle H}
  {op : LifecycleOp H} {ids : List Nat}

def Retaining (s : Lifecycle H) : Prop :=
  ∀ id request, s.requests.get? id = some request → request.isFinished = true →
    ∃ b, s.kv.Holds id b

def PinnedHold (ids : List Nat) (s : Lifecycle H) : Prop :=
  ∀ id ∈ ids, ∀ request, s.requests.get? id = some request → request.pinned = true →
    request.isFinished = false → ∃ b, s.kv.Holds id b

/-- The step leaves blocks to the request if it is a finished one afterwards. -/
def LeavesBlocks (s : Lifecycle H) : LifecycleOp H → Prop
  | .unpin id => ∀ request, s.requests.get? id = some request → request.isFinished = false
  | .finish request => request.pinned = true → ∃ b, s.kv.Holds request.requestId b
  | .add _ | .allocate _ | .progress _ | .preempt _ | .pin _ => True

theorem Step.holds_of_ne (free : ∀ h ∈ hasher, h.CollisionFree) (step : Step hasher s op s')
    (ok : s.kv.Ok) {id b : Nat} (different : id ≠ op.requestId) :
    s'.kv.Holds id b ↔ s.kv.Holds id b :=
  KVCacheManager.holds_of_frame different (step.effect free ok).frame

theorem Retaining.step (free : ∀ h ∈ hasher, h.CollisionFree) (retaining : s.Retaining)
    (ok : s.kv.Ok) (step : Step hasher s op s') (leaves : s.LeavesBlocks op) : s'.Retaining := by
  intro id request stored finished
  by_cases different : id = op.requestId
  · subst different
    cases step with
    | add hashed unfinished =>
      obtain rfl := Option.some.inj (stored.symm.trans (Dict.get?_set_self _ _ _))
      cases unfinished.symm.trans finished
    | allocate found unfinished =>
      obtain rfl := Option.some.inj (stored.symm.trans found)
      cases unfinished.symm.trans finished
    | @progress old updated updates sameFinished =>
      obtain rfl := Option.some.inj (stored.symm.trans (Dict.get?_set_self _ _ _))
      exact retaining _ old updates.stored (sameFinished.symm.trans finished)
    | preempt =>
      obtain rfl := Option.some.inj (stored.symm.trans (Dict.get?_set_self _ _ _))
      cases finished
    | finishPinned _ _ _ pinned => exact leaves pinned
    | finish => cases stored.symm.trans (Dict.get?_erase_self _ _)
    | pin => exact retaining _ request stored finished
    | unpin => cases (leaves request stored).symm.trans finished
  · rw [step.requests_of_ne different] at stored
    obtain ⟨b, holds⟩ := retaining id request stored finished
    exact ⟨b, (step.holds_of_ne free ok different).mpr holds⟩

/-- The results of other requests change nothing, and a request that finishes does not count any
more. -/
theorem PinnedHold.step (free : ∀ h ∈ hasher, h.CollisionFree) (hold : s.PinnedHold ids)
    (ok : s.kv.Ok) (step : Step hasher s op s') (isResult : op.IsResultOf ids) :
    s'.PinnedHold ids := by
  intro id inIds request stored pinned unfinished
  by_cases different : id = op.requestId
  · subst different
    cases step with
    | @progress old updated updates sameFinished =>
      obtain rfl := Option.some.inj (stored.symm.trans (Dict.get?_set_self _ _ _))
      exact hold _ inIds old updates.stored (updates.pinned.symm.trans pinned)
        (sameFinished.symm.trans unfinished)
    | finishPinned _ _ finished =>
      obtain rfl := Option.some.inj (stored.symm.trans (Dict.get?_set_self _ _ _))
      cases unfinished.symm.trans finished
    | finish => cases stored.symm.trans (Dict.get?_erase_self _ _)
    | add | allocate | preempt | pin | unpin => exact isResult.elim
  · rw [step.requests_of_ne different] at stored
    obtain ⟨b, holds⟩ := hold id inIds request stored pinned unfinished
    exact ⟨b, (step.holds_of_ne free ok different).mpr holds⟩

theorem PinnedHold.leavesBlocks (hold : s.PinnedHold ids) (step : Step hasher s op s')
    (isResult : op.IsResultOf ids) : s.LeavesBlocks op := by
  cases step with
  | finishPinned updates unfinished =>
    exact fun pinned =>
      hold _ isResult _ updates.stored (updates.pinned.symm.trans pinned) unfinished
  | finish _ _ _ unpinned => exact fun pinned => nomatch unpinned.symm.trans pinned
  | add | allocate | progress | preempt | pin => exact trivial
  | unpin => exact isResult.elim

end Lifecycle

namespace Scheduler

variable {H E : Type} [DecidableEq H]

def compileGrammar (id : Nat) (s : Scheduler H E) : Scheduler H E :=
  match s.requests.get? id with
  | none => s
  | some request => s.store { request with grammarReady := true }

variable (encoders : EncoderCacheManager H E)

def execWith (connector : Option (KVConnector H)) (op : SchedulerOp) (s : Scheduler H E) :
    Except EngineError (Scheduler H E) :=
  match op with
  | .add request => do
      let request ← Request.fromEngineCoreRequest s.hasher request
      return s.addRequest request
  | .schedule => do
      let (_, s) ← s.schedule encoders connector
      return s
  | .update scheduled results => do
      let (_, s) ← s.updateFromOutput encoders connector scheduled results
      return s
  | .finish ids finishedStatus => s.finishRequests encoders connector ids finishedStatus
  | .pin id => .ok { s with kv := s.kv.pinRequest id }
  | .unpin id => s.unpinRequest id
  | .compileGrammar id => .ok (s.compileGrammar id)
  | .updateDraftTokenIds id specTokenIds => .ok (s.updateDraftTokenIds id specTokenIds)

def exec (op : SchedulerOp) (s : Scheduler H E) : Except EngineError (Scheduler H E) :=
  s.execWith encoders none op

/-- The front end does not add a request under the id of a request that is not finished, and
without a connector no transfer is reported. -/
def Issued (s : Scheduler H E) : SchedulerOp → Prop
  | .add request => ∀ old, s.requests.get? request.requestId = some old → old.isFinished = true
  | .update _ results => results.NoTransfers
  | _ => True

def Step (s : Scheduler H E) (op : SchedulerOp) (s' : Scheduler H E) : Prop :=
  s.Issued op ∧ s.exec encoders op = .ok s'

variable {encoders} {s s' : Scheduler H E} {op : SchedulerOp}

omit [DecidableEq H] in
theorem fromEngineCoreRequest_meets (hasher : Option (BlockHasher H))
    (request : EngineCoreRequest) :
    Gives
      (fun added => added.requestId = request.requestId ∧ added.Hashed hasher ∧
        added.status.isWaiting = true)
      (Request.fromEngineCoreRequest hasher request) := by
  have isWaiting : (Request.init request : Request H).status.isWaiting = true := by
    simp only [Request.init]
    split
    · rfl
    · rfl
  unfold Request.fromEngineCoreRequest
  split
  · exact trivial
  · have hashed := (Request.hashed_init hasher request).hashNewFullBlocks
    cases hasher with
    | none | some hasher => exact ⟨rfl, hashed, isWaiting⟩

theorem store_moves {ids : List Nat} {old request : Request H} (inv : s.queues.Inv s.hasher)
    (stored : s.requests.get? old.requestId = some old) (later : old.Later s.hasher request)
    (sameStatus : request.status = old.status) :
    MovesTo s.hasher (LifecycleOp.IsResultOf ids) s (s.store request) := by
  have hashed := (inv.life.stored _ _ stored).2
  rw [← later.sameId] at stored
  refine ⟨.single (.of_update stored later.pinned (later.hashed hashed) ?_) trivial, ⟨rfl, rfl⟩⟩
  rw [sameStatus]
  exact .refl _

theorem Step.moves (free : ∀ h ∈ s.hasher, h.CollisionFree) (inv : s.queues.Inv s.hasher)
    (step : Step encoders s op s') : MovesTo s.hasher op.Allows s s' := by
  obtain ⟨issued, returns⟩ := step
  cases op with
  | add request =>
    obtain ⟨added, builds, adds⟩ := bind_eq_ok.mp returns
    obtain ⟨sameId, hashed, isWaiting⟩ := (fromEngineCoreRequest_meets s.hasher request).ok builds
    cases adds
    exact ⟨.single (addRequest_move hashed isWaiting (sameId ▸ issued)) ⟨added, rfl, sameId⟩,
      ⟨rfl, rfl⟩⟩
  | schedule =>
    obtain ⟨⟨output, s₁⟩, schedules, same⟩ := bind_eq_ok.mp returns
    cases same
    exact (schedule_moves free inv).ok schedules
  | update scheduled results =>
    obtain ⟨⟨outputs, s₁⟩, updates, same⟩ := bind_eq_ok.mp returns
    cases same
    exact (updateFromOutput_moves free inv rfl scheduled results issued).ok
      updates
  | finish ids finishedStatus =>
    exact (finishRequests_moves free inv ids finishedStatus).ok returns
  | pin id =>
    cases returns
    exact ⟨.single (.pin .pin) rfl, ⟨rfl, rfl⟩⟩
  | unpin id =>
    obtain ⟨move, static⟩ := (unpinRequest_move id).ok returns
    exact ⟨.single move rfl, static⟩
  | compileGrammar id =>
    cases returns
    unfold compileGrammar
    split
    · exact .refl s
    · rename_i request stored
      obtain rfl := (inv.life.stored _ _ stored).1
      exact store_moves inv stored ⟨rfl, rfl, fun hashed => hashed.of_blockHashes rfl⟩ rfl
  | updateDraftTokenIds id specTokenIds =>
    cases returns
    unfold updateDraftTokenIds
    split
    · exact .refl s
    · rename_i request stored
      split
      · exact .refl s
      · obtain rfl := (inv.life.stored _ _ stored).1
        exact store_moves inv stored ⟨rfl, rfl, fun hashed => hashed.of_blockHashes rfl⟩ rfl

/-! ## Invariants of a run -/

omit [DecidableEq H] in
theorem inv_init (config : SchedulerConfig) (hasher : Option (BlockHasher H))
    (kvConfig : KVCacheConfig) (encoder : E) :
    (init config hasher kvConfig encoder).queues.Inv hasher :=
  Queues.inv_init kvConfig hasher

section

variable {config : SchedulerConfig} {hasher : Option (BlockHasher H)} {kvConfig : KVCacheConfig}
  {encoder : E} (free : ∀ h ∈ hasher, h.CollisionFree)

include free in
/-- A step of the scheduler is a run of moves from a state that meets the invariant. -/
theorem Step.movesTo (isHasher : s.hasher = hasher) (inv : s.queues.Inv hasher)
    (step : Step encoders s op s') : MovesTo hasher op.Allows s s' := by
  subst isHasher
  exact step.moves free inv

include free in
/-- In every run the queues hold the stored requests that are not finished, each once. -/
theorem inv_of_trace {ops : List SchedulerOp}
    (run : Trace (Step encoders) (init config hasher kvConfig encoder) ops s) :
    s.hasher = hasher ∧ s.queues.Inv hasher :=
  run.invariant (P := fun s => s.hasher = hasher ∧ s.queues.Inv hasher)
    (fun _ _ _ step ⟨isHasher, inv⟩ =>
      have moves := step.movesTo free isHasher inv
      ⟨moves.static.hasher.trans isHasher, moves.run.inv free inv⟩)
    ⟨rfl, inv_init config hasher kvConfig encoder⟩

include free in
/-- The lengths of the queues count the stored requests that are not finished. -/
theorem numUnfinishedRequests_eq {ops : List SchedulerOp}
    (run : Trace (Step encoders) (init config hasher kvConfig encoder) ops s) :
    s.getNumUnfinishedRequests = (s.requests.keys.filter fun id =>
      (s.requests.get? id).any (!·.isFinished)).length := by
  have inv := (inv_of_trace free run).2
  rw [getNumUnfinishedRequests, ← List.length_append]
  apply List.Perm.length_eq
  apply (List.perm_ext_iff_of_nodup (Multiset.coe_nodup.mp inv.nodup)
    (s.requests.nodup.filter _)).mpr
  intro id
  rw [List.mem_filter, Option.any_eq_true]
  constructor
  · intro queued
    obtain ⟨request, stored, unfinished⟩ := inv.unfinished (Multiset.mem_coe.mpr queued)
    exact ⟨s.requests.mem_keys_of_get? stored, request, stored, by rw [unfinished]; rfl⟩
  · rintro ⟨-, request, stored, unfinished⟩
    exact List.mem_append.mpr (inv.listed id request stored (by simpa using unfinished))

include free in
/-- Every run of the scheduler is a run of steps in the life of single requests. -/
theorem lifecycle_of_trace {ops : List SchedulerOp}
    (run : Trace (Step encoders) (init config hasher kvConfig encoder) ops s) :
    ∃ steps, Trace (Lifecycle.Step hasher) (.init kvConfig) steps ⟨s.kv, s.requests⟩ := by
  have held := run.invariant (P := fun s => s.hasher = hasher ∧ s.queues.Inv hasher ∧
      ∃ steps, Trace (Lifecycle.Step hasher) (.init kvConfig) steps s.queues.life)
    (fun s op s' step ⟨isHasher, inv, steps, toS⟩ => by
      have moves := step.movesTo free isHasher inv
      obtain ⟨more, trace, -⟩ := moves.run
      exact ⟨moves.static.hasher.trans isHasher, moves.run.inv free inv, steps ++ more,
        toS.append (Queues.trace_life trace)⟩)
    ⟨rfl, inv_init config hasher kvConfig encoder, [], .nil _⟩
  exact held.2.2

/-! ## Stored requests -/

/-- No finished request is unpinned, and the pinned requests that may finish have blocks. -/
def KeepsBlocks (s : Scheduler H E) : SchedulerOp → Prop
  | .update scheduled _ => s.queues.life.PinnedHold scheduled.numScheduledTokens.keys
  | .finish ids _ => s.queues.life.PinnedHold ids
  | .unpin id => ∀ request, s.requests.get? id = some request → request.isFinished = false
  | .add _ | .schedule | .pin _ | .compileGrammar _ | .updateDraftTokenIds _ _ => True

def KeepingStep (encoders : EncoderCacheManager H E) (s : Scheduler H E)
    (op : SchedulerOp) (s' : Scheduler H E) : Prop :=
  Step encoders s op s' ∧ s.KeepsBlocks op

include free in
theorem retaining_of_results {ids : List Nat} {q q' : Queues H} (inv : q.Inv hasher)
    (retaining : q.life.Retaining) (hold : q.life.PinnedHold ids)
    (run : Queues.Run hasher (LifecycleOp.IsResultOf ids) q q') : q'.life.Retaining := by
  obtain ⟨ops, trace, allowed⟩ := run
  have held := trace.invariant_of
    (P := fun q => q.Inv hasher ∧ q.life.Retaining ∧ q.life.PinnedHold ids)
    (fun q op q' isResult move ⟨inv, retaining, hold⟩ =>
      ⟨inv.move free move,
        retaining.step free inv.life.ok move.step (hold.leavesBlocks move.step isResult),
        hold.step free inv.life.ok move.step isResult⟩)
    allowed ⟨inv, retaining, hold⟩
  exact held.2.1

include free in
theorem retaining_of_others {A : LifecycleOp H → Prop} {q q' : Queues H} (inv : q.Inv hasher)
    (retaining : q.life.Retaining)
    (leaves : ∀ (op : LifecycleOp H) (s : Lifecycle H), A op → s.LeavesBlocks op)
    (run : Queues.Run hasher A q q') : q'.life.Retaining := by
  obtain ⟨ops, trace, allowed⟩ := run
  have held := trace.invariant_of (P := fun q => q.Inv hasher ∧ q.life.Retaining)
    (fun q op q' isAllowed move ⟨inv, retaining⟩ =>
      ⟨inv.move free move,
        retaining.step free inv.life.ok move.step (leaves op q.life isAllowed)⟩)
    allowed ⟨inv, retaining⟩
  exact held.2

include free in
theorem KeepingStep.retaining (isHasher : s.hasher = hasher) (inv : s.queues.Inv hasher)
    (retaining : s.queues.life.Retaining) (step : KeepingStep encoders s op s') :
    s'.queues.life.Retaining := by
  obtain ⟨step, keeps⟩ := step
  have run := (step.movesTo free isHasher inv).run
  cases op with
  | add request =>
    refine retaining_of_others free inv retaining ?_ run
    rintro _ _ ⟨added, rfl, -⟩
    exact trivial
  | schedule =>
    refine retaining_of_others free inv retaining (fun op _ isScheduling => ?_) run
    cases op with
    | add | allocate | progress | preempt | pin => exact trivial
    | finish | unpin => exact isScheduling.elim
  | update scheduled results | finish ids finishedStatus =>
    exact retaining_of_results free inv retaining keeps run
  | pin id =>
    refine retaining_of_others free inv retaining ?_ run
    rintro _ _ rfl
    exact trivial
  | unpin id =>
    obtain ⟨move, -⟩ := (unpinRequest_move id).ok step.2
    exact retaining.step free inv.life.ok move.step keeps
  | compileGrammar id | updateDraftTokenIds id specTokenIds =>
    exact retaining_of_results free inv retaining
      (fun _ member => absurd member List.not_mem_nil) run

include free in
/-- If no finished request is unpinned and pinned requests finish with blocks, then every stored
request is waiting, running, or finished with blocks. -/
theorem stored_listed_or_retained {ops : List SchedulerOp}
    (run : Trace (KeepingStep encoders) (init config hasher kvConfig encoder) ops s)
    {id : Nat} {request : Request H} (stored : s.requests.get? id = some request) :
    id ∈ s.waiting ∨ id ∈ s.running ∨ request.isFinished = true ∧ ∃ b, s.kv.Holds id b := by
  have held := run.invariant
    (P := fun s => s.hasher = hasher ∧ s.queues.Inv hasher ∧ s.queues.life.Retaining)
    (fun _ _ _ step ⟨isHasher, inv, retaining⟩ =>
      have moves := step.1.movesTo free isHasher inv
      ⟨moves.static.hasher.trans isHasher, moves.run.inv free inv,
        step.retaining free isHasher inv retaining⟩)
    ⟨rfl, inv_init config hasher kvConfig encoder, fun _ _ found => (nomatch found)⟩
  obtain ⟨-, inv, retaining⟩ := held
  cases finished : request.isFinished with
  | true => exact Or.inr (Or.inr ⟨rfl, retaining id request stored finished⟩)
  | false => exact (inv.listed id request stored finished).imp_right Or.inl

end

end Scheduler

/-! ## Small runs -/

def noEncoder {H : Type} : EncoderCacheManager H Unit where
  tryScheduleEncoderInputs :=
    fun _ _ numNewTokens budget _ e => .ok (⟨[], numNewTokens, budget, []⟩, e)
  allocate := fun _ _ e => .ok e
  free := fun _ e => e
  freeEncoderInputs := fun _ e => e

def smallSchedulerConfig : SchedulerConfig where
  policy := .fcfs
  maxNumRunningReqs := 4
  maxNumScheduledTokens := 16
  maxModelLen := 8
  longPrefillTokenThreshold := 0
  enableChunkedPrefill := true
  isEncoderDecoder := false
  encoderComputeBudget := 0
  maxNumEncoderInputTokens := 0
  numLookaheadTokens := 0
  maxLoras := none
  useV2ModelRunner := false
  blockSize := 2

def smallScheduler (kvConfig : KVCacheConfig) :
    Scheduler ContentHash Unit :=
  .init smallSchedulerConfig (some (contentHasher 2)) kvConfig ()

def pinnedCoreRequest : EngineCoreRequest :=
  { requestId := 7, promptTokenIds := [1, 2, 3, 4],
    samplingParams := some { maxTokens := 1, pinned := true } }

def oneTokenEach (ids : List Nat) : ModelRunnerOutput where
  reqIdToIndex := (ids.zipIdx).foldl (fun indices entry => indices.set entry.1 entry.2) .empty
  sampledTokenIds := ids.map fun _ => [9]
  poolerOutput := []
  promptLogprobs := []
  finishedRecving := []
  finishedSending := []

/-- A call in a fixed run.  An update brings the results of one of the batches scheduled before. -/
inductive Call where
  | op (op : SchedulerOp)
  | schedule
  | update (batch : Nat) (results : ModelRunnerOutput)

/-- A run so far: its last state, its steps and the batches that were scheduled. -/
structure CallRun (H E : Type) where
  scheduler : Scheduler H E
  ops : List SchedulerOp
  batches : List SchedulerOutput

namespace Scheduler

variable {H E : Type} [DecidableEq H] {encoders : EncoderCacheManager H E}
  {s s' : Scheduler H E}

omit [DecidableEq H] in
instance (s : Scheduler H E) : (op : SchedulerOp) → Decidable (s.Issued op)
  | .add request => inferInstanceAs
                      (Decidable (∀ old ∈ s.requests.get? request.requestId, _ = true))
  | .update _ results => inferInstanceAs (Decidable (results.finishedRecving = [] ∧ _ = []))
  | .schedule | .finish _ _ | .pin _ | .unpin _ | .compileGrammar _ | .updateDraftTokenIds _ _ =>
      isTrue trivial

theorem Step.of_schedule {output : SchedulerOutput}
    (returns : s.schedule encoders none = .ok (output, s')) :
    Step encoders s .schedule s' :=
  ⟨trivial, bind_eq_ok.mpr ⟨(output, s'), returns, rfl⟩⟩

theorem Step.of_update {scheduled : SchedulerOutput} {results : ModelRunnerOutput}
    {outputs : List EngineCoreOutput} (noTransfers : results.NoTransfers)
    (returns : s.updateFromOutput encoders none scheduled results = .ok (outputs, s')) :
    Step encoders s (.update scheduled results) s' :=
  ⟨noTransfers, bind_eq_ok.mpr ⟨(outputs, s'), returns, rfl⟩⟩

def perform (encoders : EncoderCacheManager H E) (run : CallRun H E) (op : SchedulerOp) :
    Except EngineError (CallRun H E) :=
  if run.scheduler.Issued op then do
    let s ← run.scheduler.exec encoders op
    return { run with scheduler := s, ops := run.ops ++ [op] }
  else .error .schedulerAssertion

def call (encoders : EncoderCacheManager H E) (run : CallRun H E) :
    Call → Except EngineError (CallRun H E)
  | .op op => perform encoders run op
  | .schedule => do
      let (output, s) ← run.scheduler.schedule encoders none
      return ⟨s, run.ops ++ [.schedule], run.batches ++ [output]⟩
  | .update batch results =>
      match run.batches[batch]? with
      | some output => perform encoders run (.update output results)
      | none => .error .indexOutOfRange

def calls (encoders : EncoderCacheManager H E) (calls : List Call) (s : Scheduler H E) :
    Except EngineError (CallRun H E) :=
  calls.foldlM (call encoders) ⟨s, [], []⟩

theorem perform_trace {run : CallRun H E} (op : SchedulerOp)
    (toRun : Trace (Step encoders) s run.ops run.scheduler) :
    Gives (fun run' => Trace (Step encoders) s run'.ops run'.scheduler)
      (perform encoders run op) := by
  unfold perform
  split
  · rename_i issued
    cases returns : run.scheduler.exec encoders op with
    | error e => exact trivial
    | ok s' => exact toRun.append (.cons ⟨issued, returns⟩ (.nil s'))
  · exact trivial

theorem calls_trace (list : List Call) (s : Scheduler H E) :
    Gives (fun run => Trace (Step encoders) s run.ops run.scheduler)
      (s.calls encoders list) := by
  refine Meets.foldlM (P := fun run : CallRun H E =>
    Trace (Step encoders) s run.ops run.scheduler) list _ (fun next _ run toRun => ?_)
    (.nil s)
  cases next with
  | op op => exact perform_trace op toRun
  | schedule =>
    cases returns : run.scheduler.schedule encoders none with
    | error e =>
      simp only [call, returns]
      exact trivial
    | ok result =>
      simp only [call, returns]
      exact toRun.append (.cons (.of_schedule returns) (.nil result.2))
  | update batch results =>
    unfold call
    dsimp only
    split
    · exact perform_trace _ toRun
    · exact trivial

/-- The pinned request has finished and stays stored; a second one waits. -/
theorem numUnfinishedRequests_retained :
    ∃ ops s, Trace (Step noEncoder) (smallScheduler smallKVCacheConfig) ops s ∧
      s.requests.keys = [7, 8] ∧ s.getNumUnfinishedRequests = 1 := by
  have runs : ∃ run, (smallScheduler smallKVCacheConfig).calls noEncoder
      [.op (.add pinnedCoreRequest), .schedule, .update 0 (oneTokenEach [7]),
        .op (.add { pinnedCoreRequest with requestId := 8 })] = .ok run ∧
      run.scheduler.requests.keys = [7, 8] ∧ (run.scheduler.requests.keys.filter fun id =>
        (run.scheduler.requests.get? id).any (!·.isFinished)).length = 1 := by
    decide +kernel
  obtain ⟨⟨s, ops, _⟩, runs, keys, one⟩ := runs
  have run := (calls_trace _ _).ok runs
  exact ⟨ops, s, run, keys, (numUnfinishedRequests_eq (contentHasher_free 2) run).trans one⟩

def finishPinned : Except EngineError
    (SchedulerOutput × Scheduler ContentHash Unit × Scheduler ContentHash Unit) := do
  let s ← (smallScheduler smallKVCacheConfig).exec noEncoder (.add pinnedCoreRequest)
  let (output, s) ← s.schedule noEncoder none
  let (_, s') ← s.updateFromOutput noEncoder none output (oneTokenEach [7])
  return (output, s, s')

theorem finishPinned_steps {output : SchedulerOutput} {s s' : Scheduler ContentHash Unit}
    (returns : finishPinned = .ok (output, s, s')) :
    ∃ s₀, Step noEncoder (smallScheduler smallKVCacheConfig) (.add pinnedCoreRequest) s₀ ∧
      Step noEncoder s₀ .schedule s ∧ Step noEncoder s (.update output (oneTokenEach [7])) s' := by
  obtain ⟨s₀, adds, returns⟩ := bind_eq_ok.mp returns
  obtain ⟨⟨output₁, s₁⟩, schedules, returns⟩ := bind_eq_ok.mp returns
  obtain ⟨⟨outputs, s₂⟩, updates, returns⟩ := bind_eq_ok.mp returns
  cases returns
  exact ⟨s₀, ⟨fun _ found => (nomatch found), adds⟩, .of_schedule schedules,
    .of_update ⟨rfl, rfl⟩ updates⟩

/-- A request that was unpinned after it had finished stays stored, without blocks. -/
theorem unpinned_request_stays :
    ∃ ops s, Trace (Step noEncoder) (smallScheduler smallKVCacheConfig) ops s ∧
      ∃ request, s.requests.get? 7 = some request ∧ request.isFinished = true ∧
        7 ∉ s.waiting ∧ 7 ∉ s.running ∧ ∀ b, ¬ s.kv.Holds 7 b := by
  have runs : ∃ run, (smallScheduler smallKVCacheConfig).calls noEncoder
      [.op (.add pinnedCoreRequest), .schedule, .update 0 (oneTokenEach [7]), .op (.unpin 7)] =
        .ok run ∧ (run.scheduler.kv.getBlocks 7).flatten = [] ∧
      ∃ request, run.scheduler.requests.get? 7 = some request ∧ request.isFinished = true ∧
        7 ∉ run.scheduler.waiting ∧ 7 ∉ run.scheduler.running := by
    decide +kernel
  obtain ⟨⟨s, ops, _⟩, runs, noBlocks, request, stored, finished, notWaiting, notRunning⟩ := runs
  refine ⟨ops, s, (calls_trace _ _).ok runs, request, stored, finished, notWaiting, notRunning,
    fun b holds => ?_⟩
  rw [KVCacheManager.holds_iff_mem_getBlocks, noBlocks] at holds
  exact absurd holds List.not_mem_nil

/-- The pinned request finishes and is not unpinned. -/
theorem stored_listed_or_retained_pinned :
    ∃ ops s, Trace (KeepingStep noEncoder) (smallScheduler smallKVCacheConfig) ops s ∧
      ∃ request, s.requests.get? 7 = some request ∧ request.isFinished = true ∧
        (7 ∈ s.waiting ∨ 7 ∈ s.running ∨
          request.isFinished = true ∧ ∃ b, s.kv.Holds 7 b) := by
  have free := contentHasher_free 2
  have runs : ∃ result, finishPinned = .ok result ∧
      result.1.numScheduledTokens.keys = [7] ∧ 1 ∈ (result.2.1.kv.getBlocks 7).flatten ∧
      ∃ request, result.2.2.requests.get? 7 = some request ∧ request.isFinished = true := by
    decide +kernel
  obtain ⟨⟨output, s, s'⟩, runs, isOnly, holds, request, stored, finished⟩ := runs
  obtain ⟨s₀, adds, schedules, updates⟩ := finishPinned_steps runs
  have hold : s.queues.life.PinnedHold output.numScheduledTokens.keys := by
    intro id listed _ _ _ _
    rw [isOnly, List.mem_singleton] at listed
    exact ⟨1, KVCacheManager.holds_iff_mem_getBlocks.mpr (listed ▸ holds)⟩
  have run : Trace (KeepingStep noEncoder) (smallScheduler smallKVCacheConfig)
      [.add pinnedCoreRequest, .schedule, .update output (oneTokenEach [7])] s' :=
    .cons ⟨adds, trivial⟩ (.cons ⟨schedules, trivial⟩ (.cons ⟨updates, hold⟩ (.nil s')))
  exact ⟨_, s', run, request, stored, finished, stored_listed_or_retained free run stored⟩

/-! ### A leaked block -/

def twoBlocksConfig : KVCacheConfig where
  numBlocks := 3
  groups := [⟨.full, 2⟩]
  maxModelLen := 8
  hashBlockSize := 2
  enableCaching := true
  useEagle := false
  worldSize := 1
  numBlocks_pos := by decide
  hashBlockSize_eq := smallKVCacheConfig.hashBlockSize_eq

def shortCoreRequest : EngineCoreRequest :=
  { requestId := 1, promptTokenIds := [5], samplingParams := some { maxTokens := 3 } }

def pinnedBlockCoreRequest : EngineCoreRequest :=
  { requestId := 2, promptTokenIds := [6, 7],
    samplingParams := some { maxTokens := 3, pinned := true } }

/-- Both requests get a block and a token.  The pinned one then needs a second block; there is
none, so that it is preempted itself, which gives its pinned block back.  In the end both requests
are aborted and the pinned one is unpinned. -/
def preemptPinned : List Call :=
  [.op (.add shortCoreRequest), .op (.add pinnedBlockCoreRequest), .schedule,
    .update 0 (oneTokenEach [1, 2]), .schedule, .op (.finish [1, 2] .finishedAborted)]

/-- All requests are finished, and the only one that is still stored has been unpinned.  Its
pinned block is neither free nor in a table. -/
theorem pinned_block_leaked :
    ∃ ops s, Trace (Step noEncoder) (smallScheduler twoBlocksConfig) ops s ∧
      ops.getLast? = some (.unpin 2) ∧
      (∀ id request, s.requests.get? id = some request → id = 2 ∧ request.isFinished = true) ∧
      ∃ b, b ≠ nullBlock ∧ b < twoBlocksConfig.numBlocks ∧
        b ∉ s.kv.blockPool.freeBlockQueue.blocks ∧ ∀ id, ¬ s.kv.Holds id b := by
  have free := contentHasher_free 2
  have runs : ∃ run, (smallScheduler twoBlocksConfig).calls noEncoder preemptPinned = .ok run ∧
      ∃ s, run.scheduler.unpinRequest 2 = .ok s ∧
        (∀ entry ∈ s.requests.entries, entry.1 = 2 ∧ entry.2.isFinished = true) ∧
        (s.kv.blockPool.blocks 2).refCnt = 0 ∧ (s.kv.blockPool.blocks 2).pinned = true ∧
        s.kv.blockPool.numGpuBlocks = 3 := by
    decide +kernel
  obtain ⟨aborted, runs, s, unpins, allFinished, noRefs, isPinned, numBlocks⟩ := runs
  have run : Trace (Step noEncoder) (smallScheduler twoBlocksConfig)
      (aborted.ops ++ [.unpin 2]) s :=
    ((calls_trace _ _).ok runs).append (.cons ⟨trivial, unpins⟩ (.nil s))
  have ok : s.kv.Ok := (inv_of_trace free run).2.life.ok
  have lost := ok.lost (by decide) (numBlocks ▸ by decide) noRefs isPinned
  refine ⟨_, s, run, List.getLast?_concat, fun id request found => ?_,
    2, by decide, by decide, lost⟩
  exact allFinished (id, request) ((Dict.get?_eq_some_iff _ _ _).mp found)

end Scheduler

end Kalypso.Engine
