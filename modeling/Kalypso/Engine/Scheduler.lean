import Kalypso.Engine.KVCacheManager
import Mathlib.Algebra.Ring.Int.Defs

/-!
# The scheduler

`Scheduler.schedule`, `update_from_output`, `add_request` and `finish_requests`.  The queues hold
the ids of requests that are stored in `requests`.  The encoder cache and the KV connector are
parameters: the scheduler only calls them and follows their answers.
-/

set_option autoImplicit false

namespace Kalypso.Engine

open Kalypso.Lib

inductive SchedulingPolicy where
  | fcfs
  | priority
  deriving DecidableEq, Repr

structure SchedulerConfig where
  policy : SchedulingPolicy
  maxNumRunningReqs : Nat
  maxNumScheduledTokens : Int
  maxModelLen : Nat
  longPrefillTokenThreshold : Int
  enableChunkedPrefill : Bool
  isEncoderDecoder : Bool
  /-- `self.max_num_encoder_input_tokens`, the compute budget of a step -/
  encoderComputeBudget : Int
  /-- `scheduler_config.max_num_encoder_input_tokens`, for cross-attention blocks -/
  maxNumEncoderInputTokens : Int
  numLookaheadTokens : Int
  /-- `lora_config.max_loras` -/
  maxLoras : Option Nat
  useV2ModelRunner : Bool
  blockSize : Nat

structure EncoderPlan where
  encoderInputsToSchedule : List Nat
  numNewTokens : Int
  encoderComputeBudget : Int
  externalLoadEncoderInput : List Nat

structure EncoderCacheManager (H E : Type) where
  /-- the arguments are `num_computed_tokens`, `num_new_tokens`, `encoder_compute_budget` and
  `shift_computed_tokens` -/
  tryScheduleEncoderInputs : Request H → Int → Int → Int → Int → E →
    Except EngineError (EncoderPlan × E)
  allocate : Request H → Nat → E → Except EngineError E
  free : Request H → E → E
  freeEncoderInputs : Request H → E → E

/-- The answers of a KV connector during one call of the scheduler. -/
structure KVConnector (H : Type) where
  supportsHMA : Bool
  /-- the number of external tokens, if it is known yet, and whether they are loaded
  asynchronously -/
  getNumNewMatchedTokens : Request H → Int → Option Int × Bool
  /-- whether to delay freeing the blocks, and the parameters for the response -/
  requestFinished : Request H → List (List Nat) → Bool × Option Nat

structure SchedulerOutput where
  scheduledNewReqs : List Nat
  scheduledResumedReqs : List Nat
  scheduledRunningReqs : List Nat
  reqToNewBlocks : Dict Nat (List (List Nat))
  numScheduledTokens : Dict Nat Int
  scheduledSpecDecodeTokens : Dict Nat (List Nat)
  scheduledEncoderInputs : Dict Nat (List Nat)
  preemptedReqIds : List Nat
  finishedReqIds : List Nat

structure ModelRunnerOutput where
  reqIdToIndex : Dict Nat Nat
  sampledTokenIds : List (List Nat)
  poolerOutput : List (Option Nat)
  /-- the requests with prompt logprobs -/
  promptLogprobs : List Nat
  finishedRecving : List Nat
  finishedSending : List Nat

structure EngineCoreOutput where
  clientIndex : Nat
  requestId : Nat
  newTokenIds : List Nat
  finishStatus : RequestStatus
  poolingOutput : Option Nat
  stopReason : Option Nat
  kvTransferParams : Option Nat
  numCachedTokens : Int
  deriving DecidableEq, Repr

structure Scheduler (H E : Type) where
  config : SchedulerConfig
  /-- the block hasher of the requests -/
  hasher : Option (BlockHasher H)
  kv : KVCacheManager H
  encoder : E
  requests : Dict Nat (Request H)
  waiting : List Nat
  running : List Nat
  finishedReqIds : List Nat
  finishedRecvingKvReqIds : List Nat
  failedRecvingKvReqIds : List Nat
  prevStepScheduledReqIds : List Nat

def insertBy (before : Nat → Nat → Bool) (id : Nat) : List Nat → List Nat
  | [] => [id]
  | other :: rest =>
      if before id other then id :: other :: rest else other :: insertBy before id rest

namespace Scheduler

variable {H E : Type}

def init (config : SchedulerConfig) (hasher : Option (BlockHasher H)) (kvConfig : KVCacheConfig)
    (encoder : E) : Scheduler H E where
  config := config
  hasher := hasher
  kv := .init kvConfig
  encoder := encoder
  requests := .empty
  waiting := []
  running := []
  finishedReqIds := []
  finishedRecvingKvReqIds := []
  failedRecvingKvReqIds := []
  prevStepScheduledReqIds := []

def find (id : Nat) (s : Scheduler H E) : Except EngineError (Request H) :=
  match s.requests.get? id with
  | some request => .ok request
  | none => .error .missingKey

def store (request : Request H) (s : Scheduler H E) : Scheduler H E :=
  { s with requests := s.requests.set request.requestId request }

/-! ## The waiting queue -/

def before (requests : Dict Nat (Request H)) (a b : Nat) : Bool :=
  match requests.get? a, requests.get? b with
  | some first, some second =>
      if first.priority ≠ second.priority then first.priority < second.priority
      else if first.arrivalTime ≠ second.arrivalTime then first.arrivalTime < second.arrivalTime
      else a < b
  | _, _ => a < b

/-- `add_request` of the queue.  The heap of the priority queue is the sorted list of its
requests. -/
def enqueue (id : Nat) (s : Scheduler H E) : Scheduler H E :=
  { s with waiting :=
      match s.config.policy with
      | .fcfs => s.waiting ++ [id]
      | .priority => insertBy (before s.requests) id s.waiting }

def prepended (id : Nat) (queue : List Nat) (s : Scheduler H E) : List Nat :=
  match s.config.policy with
  | .fcfs => id :: queue
  | .priority => insertBy (before s.requests) id queue

/-- `prepend_requests`: `extendleft(reversed(..))` puts the other queue in front. -/
def prependedAll (others queue : List Nat) (s : Scheduler H E) : List Nat :=
  match s.config.policy with
  | .fcfs => others ++ queue
  | .priority => others.foldl (fun queue id => insertBy (before s.requests) id queue) queue

/-! ## Adding, preempting and freeing -/

def addRequest (request : Request H) (s : Scheduler H E) : Scheduler H E :=
  (s.store request).enqueue request.requestId

variable (encoders : EncoderCacheManager H E)

/-- `_preempt_request`; the request has been taken out of the running list. -/
def preemptRequest (request : Request H) (s : Scheduler H E) : Except EngineError (Scheduler H E) :=
  if request.status ≠ .running then .error .schedulerAssertion
  else do
    let kv ← s.kv.free request.requestId
    let s := { s with kv := kv, encoder := encoders.free request s.encoder }
    let s := s.store { request with
      status := .preempted
      numComputedTokens := 0
      numPreemptions := request.numPreemptions + 1 }
    return { s with waiting := s.prepended request.requestId s.waiting }

def getNumUnfinishedRequests (s : Scheduler H E) : Nat := s.waiting.length + s.running.length

def freeBlocks (request : Request H) (s : Scheduler H E) : Except EngineError (Scheduler H E) :=
  if !request.isFinished then .error .schedulerAssertion
  else do
    let kv ← s.kv.free request.requestId
    if (s.requests.get? request.requestId).isNone then .error .missingKey
    else return { s with kv := kv, requests := s.requests.erase request.requestId }

def connectorFinished (connector : Option (KVConnector H)) (request : Request H)
    (s : Scheduler H E) : Except EngineError (Bool × Option Nat) :=
  match connector with
  | none => .ok (false, none)
  | some connector =>
      if !connector.supportsHMA && s.kv.singleTypeManagers.length ≠ 1 then
        .error .schedulerAssertion
      else .ok (connector.requestFinished request (s.kv.getBlocks request.requestId))

def freeRequest (connector : Option (KVConnector H)) (request : Request H) (s : Scheduler H E) :
    Except EngineError (Option Nat × Scheduler H E) :=
  if !request.isFinished then .error .schedulerAssertion
  else do
    let (delayFreeBlocks, kvXferParams) ← s.connectorFinished connector request
    let s := { s with
      encoder := encoders.free request s.encoder
      finishedReqIds := s.finishedReqIds.insert request.requestId }
    if !delayFreeBlocks && request.pinned == false then
      let s ← s.freeBlocks request
      return (kvXferParams, s)
    else return (kvXferParams, s)

/-! ## The running requests -/

end Scheduler

structure ScheduleLoop (H E : Type) where
  scheduler : Scheduler H E
  tokenBudget : Int
  encoderComputeBudget : Int
  reqIndex : Nat
  scheduledNewReqs : List Nat
  scheduledResumedReqs : List Nat
  scheduledRunningReqs : List Nat
  preemptedReqs : List Nat
  reqToNewBlocks : Dict Nat (List (List Nat))
  numScheduledTokens : Dict Nat Int
  scheduledSpecDecodeTokens : Dict Nat (List Nat)
  scheduledEncoderInputs : Dict Nat (List Nat)
  scheduledLoras : List Nat
  skippedWaitingRequests : List Nat

namespace ScheduleLoop

variable {H E : Type}

def init (s : Scheduler H E) : ScheduleLoop H E where
  scheduler := s
  tokenBudget := s.config.maxNumScheduledTokens
  encoderComputeBudget := s.config.encoderComputeBudget
  reqIndex := 0
  scheduledNewReqs := []
  scheduledResumedReqs := []
  scheduledRunningReqs := []
  preemptedReqs := []
  reqToNewBlocks := .empty
  numScheduledTokens := .empty
  scheduledSpecDecodeTokens := .empty
  scheduledEncoderInputs := .empty
  scheduledLoras := []
  skippedWaitingRequests := []

def withScheduler (s : Scheduler H E) (loop : ScheduleLoop H E) : ScheduleLoop H E :=
  { loop with scheduler := s }

def withKv (kv : KVCacheManager H) (loop : ScheduleLoop H E) : ScheduleLoop H E :=
  loop.withScheduler { loop.scheduler with kv := kv }

/-- The first of the running requests with the largest `(priority, arrival_time)`. -/
def lowestPriority (requests : Dict Nat (Request H)) : List Nat → Option Nat
  | [] => none
  | id :: rest =>
      match lowestPriority requests rest with
      | none => some id
      | some other =>
          match requests.get? id, requests.get? other with
          | some first, some second =>
              if first.priority < second.priority ∨
                  first.priority = second.priority ∧ first.arrivalTime < second.arrivalTime
              then some other else some id
          | _, _ => some id

/-- A request that was scheduled in this step gives its tokens back when it is preempted. -/
def unschedule (victim : Request H) (loop : ScheduleLoop H E) :
    Except EngineError (ScheduleLoop H E) :=
  let id := victim.requestId
  match loop.numScheduledTokens.get? id, loop.reqToNewBlocks.get? id with
  | some numTokens, some _ => .ok { loop with
      scheduledRunningReqs := loop.scheduledRunningReqs.erase id
      tokenBudget := loop.tokenBudget + numTokens
      reqToNewBlocks := loop.reqToNewBlocks.erase id
      numScheduledTokens := loop.numScheduledTokens.erase id
      scheduledSpecDecodeTokens := loop.scheduledSpecDecodeTokens.erase id
      scheduledEncoderInputs := loop.scheduledEncoderInputs.erase id
      encoderComputeBudget := loop.encoderComputeBudget +
        ((loop.scheduledEncoderInputs.getD id []).map victim.numEncoderEmbeds).sum
      reqIndex := loop.reqIndex - 1 }
  | _, _ => .error .missingKey

/-- Take the request to preempt out of the running list: the one with the lowest priority, or
the last one. -/
def takeVictim (loop : ScheduleLoop H E) : Except EngineError (Request H × ScheduleLoop H E) :=
  match loop.scheduler.config.policy with
  | .priority =>
      match lowestPriority loop.scheduler.requests loop.scheduler.running with
      | none => .error .indexOutOfRange
      | some id => do
          let victim ← loop.scheduler.find id
          let loop := loop.withScheduler
            { loop.scheduler with running := loop.scheduler.running.erase id }
          if id ∈ loop.scheduledRunningReqs then
            let loop ← loop.unschedule victim
            return (victim, loop)
          else return (victim, loop)
  | .fcfs =>
      match loop.scheduler.running.getLast? with
      | none => .error .indexOutOfRange
      | some id => do
          let victim ← loop.scheduler.find id
          return (victim, loop.withScheduler
            { loop.scheduler with running := loop.scheduler.running.dropLast })

variable [DecidableEq H] (encoders : EncoderCacheManager H E)

def runningSlotArgs (request : Request H) (numNewTokens : Int) (s : Scheduler H E) :
    KVCacheManager.SlotArgs H where
  request := request
  numNewTokens := numNewTokens
  numNewComputedTokens := 0
  newComputedBlocks := s.kv.emptyKVCacheBlocks
  numLookaheadTokens := s.config.numLookaheadTokens
  delayCacheBlocks := false
  numEncoderTokens := 0

/-- The inner loop: allocate slots for the running request, preempting others until they fit or
the request itself is preempted.  Every iteration takes one request out of the running list, so
that a number above its length bounds the iterations; preempting from an empty list raises. -/
def allocateOrPreempt (request : Request H) (numNewTokens : Int) :
    Nat → ScheduleLoop H E → Except EngineError (Option (List (List Nat)) × ScheduleLoop H E)
  | 0, _ => .error .indexOutOfRange
  | n + 1, loop => do
      let (newBlocks, kv) ← loop.scheduler.kv.allocateSlots
        (runningSlotArgs request numNewTokens loop.scheduler)
      let loop := loop.withKv kv
      match newBlocks with
      | some newBlocks => return (some newBlocks, loop)
      | none =>
          let (victim, loop) ← loop.takeVictim
          let s ← loop.scheduler.preemptRequest encoders victim
          let loop := { loop.withScheduler s with
            preemptedReqs := loop.preemptedReqs ++ [victim.requestId] }
          if victim.requestId = request.requestId then return (none, loop)
          else allocateOrPreempt request numNewTokens n loop

def tryScheduleEncoderInputs (request : Request H) (numComputedTokens numNewTokens : Int)
    (loop : ScheduleLoop H E) : Except EngineError (EncoderPlan × ScheduleLoop H E) :=
  if request.hasEncoderInputs then do
    let (plan, encoder) ← encoders.tryScheduleEncoderInputs request numComputedTokens
      numNewTokens loop.encoderComputeBudget (if loop.scheduler.kv.useEagle then 1 else 0)
      loop.scheduler.encoder
    return (plan, loop.withScheduler { loop.scheduler with encoder := encoder })
  else .ok (⟨[], numNewTokens, loop.encoderComputeBudget, []⟩, loop)

def allocateEncoderInputs (request : Request H) (plan : EncoderPlan) (loop : ScheduleLoop H E) :
    Except EngineError (ScheduleLoop H E) := do
  let encoder ← plan.encoderInputsToSchedule.foldlM
    (fun encoder i => encoders.allocate request i encoder) loop.scheduler.encoder
  let encoder ← plan.externalLoadEncoderInput.foldlM
    (fun encoder i => encoders.allocate request i encoder) encoder
  let loop := loop.withScheduler { loop.scheduler with encoder := encoder }
  if plan.encoderInputsToSchedule.isEmpty then return loop
  else return { loop with
    scheduledEncoderInputs :=
      loop.scheduledEncoderInputs.set request.requestId plan.encoderInputsToSchedule
    encoderComputeBudget := plan.encoderComputeBudget }

def limitPrefill (numNewTokens : Int) (loop : ScheduleLoop H E) : Int :=
  let threshold := loop.scheduler.config.longPrefillTokenThreshold
  if 0 < threshold ∧ threshold < numNewTokens then threshold else numNewTokens

/-- The new tokens of a running request, before the encoder inputs are considered. -/
def runningNumNewTokens (request : Request H) (loop : ScheduleLoop H E) : Int :=
  let numNewTokens := loop.limitPrefill ((request.numTokensWithSpec : Int) +
    request.numOutputPlaceholders - request.numComputedTokens)
  min (min numNewTokens loop.tokenBudget)
    ((loop.scheduler.config.maxModelLen : Int) - 1 - request.numComputedTokens)

/-- The draft tokens of the request that are scheduled; they are dropped from the request. -/
def scheduleSpecTokens (request : Request H) (numNewTokens : Int) (loop : ScheduleLoop H E) :
    ScheduleLoop H E :=
  if request.specTokenIds.isEmpty then loop
  else
    let numScheduledSpecTokens := numNewTokens + request.numComputedTokens - request.numTokens -
      request.numOutputPlaceholders
    let loop := loop.withScheduler (loop.scheduler.store { request with specTokenIds := [] })
    if 0 < numScheduledSpecTokens then { loop with
      scheduledSpecDecodeTokens := loop.scheduledSpecDecodeTokens.set request.requestId
        (request.specTokenIds.take numScheduledSpecTokens.toNat) }
    else loop

def scheduleRunningRequest (request : Request H) (loop : ScheduleLoop H E) :
    Except EngineError (Bool × ScheduleLoop H E) :=
  let skipped := { loop with reqIndex := loop.reqIndex + 1 }
  if 0 < request.numOutputPlaceholders ∧
      (request.numPromptTokens : Int) + request.maxTokens ≤
        request.numComputedTokens + 2 - request.numOutputPlaceholders then .ok (true, skipped)
  else do
    let (plan, loop) ← loop.tryScheduleEncoderInputs encoders request
      request.numComputedTokens (loop.runningNumNewTokens request)
    let numNewTokens := plan.numNewTokens
    if numNewTokens = 0 then return (true, { loop with reqIndex := loop.reqIndex + 1 })
    else
      let (newBlocks, loop) ← loop.allocateOrPreempt encoders request numNewTokens
        (loop.scheduler.running.length + 1)
      match newBlocks with
      | none => return (false, loop)
      | some newBlocks =>
          let loop := { loop with
            scheduledRunningReqs := loop.scheduledRunningReqs ++ [request.requestId]
            reqToNewBlocks := loop.reqToNewBlocks.set request.requestId newBlocks
            numScheduledTokens := loop.numScheduledTokens.set request.requestId numNewTokens
            tokenBudget := loop.tokenBudget - numNewTokens
            reqIndex := loop.reqIndex + 1 }
          let loop ← (loop.scheduleSpecTokens request numNewTokens).allocateEncoderInputs
            encoders { request with specTokenIds := [] } plan
          return (true, loop)

/-- The loop over the running requests.  Every iteration brings `req_index` closer to the end of
the list, so that its length bounds their number. -/
def scheduleRunning : Nat → ScheduleLoop H E → Except EngineError (ScheduleLoop H E)
  | 0, loop => .ok loop
  | n + 1, loop =>
      if loop.tokenBudget ≤ 0 then .ok loop
      else
        match loop.scheduler.running[loop.reqIndex]? with
        | none => .ok loop
        | some id => do
            let request ← loop.scheduler.find id
            let (goesOn, loop) ← loop.scheduleRunningRequest encoders request
            if goesOn then scheduleRunning n loop else return loop

/-! ## The waiting requests -/

def recordLoras (loop : ScheduleLoop H E) : Except EngineError (ScheduleLoop H E) :=
  match loop.scheduler.config.maxLoras with
  | none => .ok loop
  | some maxLoras =>
      let loras := loop.scheduledRunningReqs.filterMap fun id =>
        (loop.scheduler.requests.get? id).bind fun request =>
          request.loraIntId.filter fun lora => 0 < lora
      if maxLoras < loras.dedup.length then .error .schedulerAssertion
      else .ok { loop with scheduledLoras := loras.dedup }

def updateWaitingForRemoteKv (hasConnector : Bool) (request : Request H) (s : Scheduler H E) :
    Except EngineError (Bool × Request H × Scheduler H E) :=
  let id := request.requestId
  if !hasConnector then .error .schedulerAssertion
  else if id ∉ s.finishedRecvingKvReqIds then .ok (false, request, s)
  else if id ∈ s.failedRecvingKvReqIds then do
    let kv ←
      if request.numComputedTokens ≠ 0 then s.kv.cacheBlocks request request.numComputedTokens
      else s.kv.free id
    return (true, request, { s with
      kv := kv
      failedRecvingKvReqIds := s.failedRecvingKvReqIds.erase id
      finishedRecvingKvReqIds := s.finishedRecvingKvReqIds.erase id })
  else
    match s.kv.getBlocks id with
    | [blockIds] => do
        let numComputedTokens := min (blockIds.length * s.config.blockSize) request.numTokens
        let numComputedTokens : Int :=
          if numComputedTokens = request.numTokens then (numComputedTokens : Int) - 1
          else numComputedTokens
        let kv ← s.kv.cacheBlocks request numComputedTokens
        let request := { request with numComputedTokens := numComputedTokens }
        return (true, request, { s.store request with
          kv := kv
          finishedRecvingKvReqIds := s.finishedRecvingKvReqIds.erase id })
    | _ => .error .indexOutOfRange

/-- The checks on remote KV loading and grammar compilation: the request as it can be scheduled,
or nothing if it has to wait. -/
def readyRequest (hasConnector : Bool) (request : Request H) (s : Scheduler H E) :
    Except EngineError (Option (Request H) × Scheduler H E) :=
  let scheduled := { request with status := .waiting }
  match request.status with
  | .waitingForRemoteKvs => do
      let (isReady, request, s) ← updateWaitingForRemoteKv hasConnector request s
      if isReady then
        let request := { request with status := .waiting }
        return (some request, s.store request)
      else return (none, s)
  | .waitingForFsm =>
      if request.grammarReady then .ok (some scheduled, s.store scheduled) else .ok (none, s)
  | _ => .ok (some request, s)

structure ComputedTokens where
  newComputedBlocks : List (List Nat)
  numNewLocalComputedTokens : Int
  numExternalComputedTokens : Int
  numComputedTokens : Int
  loadKvAsync : Bool

/-- The tokens that are cached locally or externally, or nothing if the connector does not know
yet. -/
def computedTokens (connector : Option (KVConnector H)) (request : Request H)
    (kv : KVCacheManager H) : Except EngineError (Option ComputedTokens) :=
  if request.numComputedTokens = 0 then do
    let (blocks, numLocal) ← kv.getComputedBlocks request
    match connector with
    | none => return some ⟨blocks, numLocal, 0, numLocal, false⟩
    | some connector =>
        match connector.getNumNewMatchedTokens request numLocal with
        | (none, _) => return none
        | (some external, loadAsync) =>
            return some ⟨blocks, numLocal, external, numLocal + external, loadAsync⟩
  else .ok (some ⟨kv.emptyKVCacheBlocks, 0, 0, request.numComputedTokens, false⟩)

/-- The new tokens of a waiting request, or nothing if the scheduling stops here. -/
def waitingNumNewTokens (request : Request H) (computed : ComputedTokens)
    (loop : ScheduleLoop H E) : Except EngineError (Option EncoderPlan × ScheduleLoop H E) :=
  if computed.loadKvAsync then
    if computed.numExternalComputedTokens ≤ 0 then .error .schedulerAssertion
    else .ok (some ⟨[], 0, loop.encoderComputeBudget, []⟩, loop)
  else
    let numNewTokens := loop.limitPrefill
      ((request.numTokens : Int) - computed.numComputedTokens)
    if !loop.scheduler.config.enableChunkedPrefill && loop.tokenBudget < numNewTokens then
      .ok (none, loop)
    else
      let numNewTokens := min numNewTokens loop.tokenBudget
      if numNewTokens ≤ 0 then .error .schedulerAssertion
      else do
        let (plan, loop) ← loop.tryScheduleEncoderInputs encoders request
          computed.numComputedTokens numNewTokens
        if plan.numNewTokens = 0 then return (none, loop) else return (some plan, loop)

/-- How an iteration over the waiting requests ends: the request is put aside, the loop stops
with the request still in the queue, or the request is taken out of it. -/
inductive Admission where
  | skip
  | stop
  | start
  deriving DecidableEq, Repr

def exceedsLoras (request : Request H) (loop : ScheduleLoop H E) : Bool :=
  match loop.scheduler.config.maxLoras, request.loraIntId with
  | some maxLoras, some lora =>
      loop.scheduledLoras.length == maxLoras && !loop.scheduledLoras.contains lora
  | _, _ => false

def startedRequest (request : Request H) (computed : ComputedTokens) : Request H :=
  { request with
    status := .running
    numComputedTokens := computed.numComputedTokens
    numCachedTokens :=
      if request.numCachedTokens < 0 then computed.numComputedTokens else request.numCachedTokens }

/-- The request goes to the running list.  `computed` and `plan` say what it starts with. -/
def runRequest (request : Request H) (computed : ComputedTokens) (plan : EncoderPlan)
    (loop : ScheduleLoop H E) : Except EngineError (ScheduleLoop H E) :=
  let id := request.requestId
  let scheduled := startedRequest request computed
  let s := { loop.scheduler.store scheduled with running := loop.scheduler.running ++ [id] }
  let loras :=
    match loop.scheduler.config.maxLoras, request.loraIntId with
    | some _, some lora => loop.scheduledLoras.insert lora
    | _, _ => loop.scheduledLoras
  let loop := { loop.withScheduler s with
    scheduledLoras := loras
    reqToNewBlocks := loop.reqToNewBlocks.set id (loop.scheduler.kv.getBlocks id)
    numScheduledTokens := loop.numScheduledTokens.set id plan.numNewTokens
    tokenBudget := loop.tokenBudget - plan.numNewTokens }
  match request.status with
  | .waiting => { loop with scheduledNewReqs :=
                  loop.scheduledNewReqs ++ [id] }.allocateEncoderInputs
      encoders scheduled plan
  | .preempted =>
      { loop with scheduledResumedReqs := loop.scheduledResumedReqs ++ [id] }.allocateEncoderInputs
        encoders scheduled plan
  | _ => .error .invalidRequestStatus

def waitingSlotArgs (request : Request H) (computed : ComputedTokens) (numNewTokens : Int)
    (config : SchedulerConfig) : KVCacheManager.SlotArgs H where
  request := request
  numNewTokens := numNewTokens + computed.numExternalComputedTokens
  numNewComputedTokens := computed.numNewLocalComputedTokens
  newComputedBlocks := computed.newComputedBlocks
  numLookaheadTokens := if request.numComputedTokens = 0 then 0 else config.numLookaheadTokens
  delayCacheBlocks := computed.loadKvAsync
  numEncoderTokens :=
    if config.isEncoderDecoder && request.hasEncoderInputs then config.maxNumEncoderInputTokens
    else 0

def admitRequest (connector : Option (KVConnector H)) (request : Request H)
    (loop : ScheduleLoop H E) : Except EngineError (Admission × ScheduleLoop H E) := do
  let computed ← computedTokens connector request loop.scheduler.kv
  match computed with
  | none => return (.skip, loop)
  | some computed =>
      let (plan, loop) ← loop.waitingNumNewTokens encoders request computed
      match plan with
      | none => return (.stop, loop)
      | some plan =>
          let (newBlocks, kv) ← loop.scheduler.kv.allocateSlots
            (waitingSlotArgs request computed plan.numNewTokens loop.scheduler.config)
          let loop := loop.withKv kv
          if newBlocks.isNone then return (.stop, loop)
          else if computed.loadKvAsync then
            return (.skip, loop.withScheduler
              (loop.scheduler.store { request with status := .waitingForRemoteKvs }))
          else
            let loop ← loop.runRequest encoders request computed plan
            return (.start, loop)

def scheduleWaitingRequest (connector : Option (KVConnector H)) (id : Nat)
    (loop : ScheduleLoop H E) : Except EngineError (Admission × ScheduleLoop H E) := do
  let request ← loop.scheduler.find id
  let (ready, s) ← readyRequest connector.isSome request loop.scheduler
  let loop := loop.withScheduler s
  match ready with
  | none => return (.skip, loop)
  | some request =>
      if loop.exceedsLoras request then return (.skip, loop)
      else loop.admitRequest encoders connector request

def scheduleWaiting (connector : Option (KVConnector H)) :
    List Nat → ScheduleLoop H E → Except EngineError (ScheduleLoop H E)
  | [], loop => .ok (loop.withScheduler { loop.scheduler with waiting := [] })
  | id :: rest, loop =>
      let stopped := fun loop : ScheduleLoop H E =>
        loop.withScheduler { loop.scheduler with waiting := id :: rest }
      if loop.tokenBudget ≤ 0 ∨
          loop.scheduler.running.length = loop.scheduler.config.maxNumRunningReqs then
        .ok (stopped loop)
      else do
        let (admission, loop) ← loop.scheduleWaitingRequest encoders connector id
        match admission with
        | .stop => return stopped loop
        | .start => scheduleWaiting connector rest loop
        | .skip => scheduleWaiting connector rest { loop with
            skippedWaitingRequests := loop.scheduler.prepended id loop.skippedWaitingRequests }

/-- The waiting requests are scheduled only if no running request was preempted; the skipped
ones are put back. -/
def scheduleWaitingUnlessPreempted (connector : Option (KVConnector H))
    (loop : ScheduleLoop H E) : Except EngineError (ScheduleLoop H E) :=
  if !loop.preemptedReqs.isEmpty then .ok loop
  else do
    let loop ← loop.scheduleWaiting encoders connector loop.scheduler.waiting
    return loop.withScheduler { loop.scheduler with
      waiting := loop.scheduler.prependedAll loop.skippedWaitingRequests loop.scheduler.waiting }

/-- The closing assertions of `schedule` and that of `_make_cached_request_data`. -/
def closingAssertions (loop : ScheduleLoop H E) : Bool :=
  let s := loop.scheduler
  decide (loop.numScheduledTokens.values.sum ≤ s.config.maxNumScheduledTokens) &&
    decide (0 ≤ loop.tokenBudget) && decide (s.running.length ≤ s.config.maxNumRunningReqs) &&
    decide (loop.scheduledNewReqs.length + loop.scheduledResumedReqs.length +
      loop.scheduledRunningReqs.length ≤ s.running.length) &&
    (s.config.useV2ModelRunner ||
      loop.scheduledResumedReqs.all fun id => !s.prevStepScheduledReqIds.contains id)

def output (loop : ScheduleLoop H E) : SchedulerOutput :=
  let newReqs := loop.scheduledNewReqs
  { scheduledNewReqs :=
      if loop.scheduler.config.useV2ModelRunner then newReqs ++ loop.scheduledResumedReqs
      else newReqs
    scheduledResumedReqs :=
      if loop.scheduler.config.useV2ModelRunner then [] else loop.scheduledResumedReqs
    scheduledRunningReqs := loop.scheduledRunningReqs
    reqToNewBlocks := loop.reqToNewBlocks
    numScheduledTokens := loop.numScheduledTokens
    scheduledSpecDecodeTokens := loop.scheduledSpecDecodeTokens
    scheduledEncoderInputs := loop.scheduledEncoderInputs
    preemptedReqIds := loop.preemptedReqs
    finishedReqIds := loop.scheduler.finishedReqIds }

end ScheduleLoop

namespace Scheduler

variable {H E : Type} [DecidableEq H] (encoders : EncoderCacheManager H E)

def advance (s : Scheduler H E) (scheduled : Nat × Int) : Except EngineError (Scheduler H E) := do
  let request ← s.find scheduled.1
  let request := { request with
    numComputedTokens := request.numComputedTokens + scheduled.2 }
  let s := s.store request
  if request.hasEncoderInputs then
    return { s with encoder := encoders.freeEncoderInputs request s.encoder }
  else return s

def scheduleRequests (connector : Option (KVConnector H)) (s : Scheduler H E) :
    Except EngineError (ScheduleLoop H E) := do
  let loop ← (ScheduleLoop.init s).scheduleRunning encoders s.running.length
  let loop ← loop.recordLoras
  loop.scheduleWaitingUnlessPreempted encoders connector

def schedule (connector : Option (KVConnector H)) (s : Scheduler H E) :
    Except EngineError (SchedulerOutput × Scheduler H E) := do
  let loop ← s.scheduleRequests encoders connector
  if !loop.closingAssertions then .error .schedulerAssertion
  else
    let s ← loop.numScheduledTokens.entries.foldlM (advance encoders)
      { loop.scheduler with prevStepScheduledReqIds := loop.numScheduledTokens.keys }
    return (loop.output, { s with finishedReqIds := [] })

/-! ## The output of a step -/

/-- `_update_request_with_output`: the tokens up to a stop, and whether there is one. -/
def updateRequestWithOutput (hasher : Option (BlockHasher H)) (maxModelLen : Nat) :
    List Nat → Request H → Except EngineError (List Nat × Bool × Request H)
  | [], request => .ok ([], false, request)
  | token :: rest, request => do
      let (stopped, request) ← (request.appendOutputTokenId hasher token).checkStop maxModelLen
      if stopped then return ([token], true, request)
      else
        let (tokens, stopped, request) ← updateRequestWithOutput hasher maxModelLen rest request
        return (token :: tokens, stopped, request)

def rejectDrafts (scheduledSpecTokenIds : List Nat) (numGenerated : Nat) (request : Request H) :
    Request H :=
  if scheduledSpecTokenIds.isEmpty then request
  else
    let numRejected : Int := scheduledSpecTokenIds.length - (numGenerated - 1)
    { request with
      numComputedTokens :=
        if 0 < request.numComputedTokens then request.numComputedTokens - numRejected
        else request.numComputedTokens
      numOutputPlaceholders :=
        if 0 < request.numOutputPlaceholders then request.numOutputPlaceholders - numRejected
        else request.numOutputPlaceholders }

end Scheduler

structure UpdateLoop (H E : Type) where
  scheduler : Scheduler H E
  stoppedRunningReqs : List Nat
  stoppedPreemptedReqs : List Nat
  outputs : List EngineCoreOutput

def entryAt {α : Type} (default : α) (entries : List α) (i : Nat) : Except EngineError α :=
  if entries.isEmpty then .ok default
  else
    match entries[i]? with
    | some entry => .ok entry
    | none => .error .indexOutOfRange

def ModelRunnerOutput.resultsOf (id : Nat) (output : ModelRunnerOutput) :
    Except EngineError (List Nat × Option Nat) :=
  match output.reqIdToIndex.get? id with
  | none => .error .missingKey
  | some i => do
      let generated ← entryAt [] output.sampledTokenIds i
      let pooled ← entryAt none output.poolerOutput i
      return (generated, pooled)

namespace UpdateLoop

variable {H E : Type} (encoders : EncoderCacheManager H E)

/-- The request with the results of the step: its new tokens and whether it has stopped. -/
def processResults (hasher : Option (BlockHasher H)) (maxModelLen : Nat) (generated : List Nat)
    (pooled : Option Nat) (request : Request H) :
    Except EngineError (List Nat × Bool × Request H) :=
  if !generated.isEmpty then
    Scheduler.updateRequestWithOutput hasher maxModelLen generated request
  else if request.poolingParams.isSome && pooled.isSome then
    .ok ([], true, { request with status := .finishedStopped })
  else .ok ([], false, request)

def stopRequest (connector : Option (KVConnector H)) (statusBeforeStop : RequestStatus)
    (stopped : Bool) (request : Request H) (loop : UpdateLoop H E) :
    Except EngineError (Option Nat × UpdateLoop H E) :=
  if !stopped then .ok (none, loop)
  else do
    let (kvTransferParams, s) ← loop.scheduler.freeRequest encoders connector request
    let loop := { loop with scheduler := s }
    if statusBeforeStop = .running then return (kvTransferParams, { loop with
      stoppedRunningReqs := loop.stoppedRunningReqs.insert request.requestId })
    else return (kvTransferParams, { loop with
      stoppedPreemptedReqs := loop.stoppedPreemptedReqs.insert request.requestId })

def emit (request : Request H) (newTokenIds : List Nat) (pooled kvTransferParams : Option Nat)
    (hasPromptLogprobs : Bool) (loop : UpdateLoop H E) : Except EngineError (UpdateLoop H E) :=
  if !newTokenIds.isEmpty || pooled.isSome || kvTransferParams.isSome then
    .ok { loop with outputs := loop.outputs ++ [{
      clientIndex := request.clientIndex
      requestId := request.requestId
      newTokenIds := newTokenIds
      finishStatus := request.status
      poolingOutput := pooled
      stopReason := request.stopReason
      kvTransferParams := kvTransferParams
      numCachedTokens := request.numCachedTokens }] }
  else if hasPromptLogprobs then .error .schedulerAssertion
  else .ok loop

/-- One iteration of `update_from_output`.  A request that is not stored any more is skipped. -/
def updateRequest (connector : Option (KVConnector H)) (scheduled : SchedulerOutput)
    (results : ModelRunnerOutput) (loop : UpdateLoop H E) (entry : Nat × Int) :
    Except EngineError (UpdateLoop H E) :=
  if entry.2 ≤ 0 then .error .schedulerAssertion
  else
    match loop.scheduler.requests.get? entry.1 with
    | none => .ok loop
    | some request => do
        let (generated, pooled) ← results.resultsOf entry.1
        let (newTokenIds, stopped, updated) ← processResults loop.scheduler.hasher
          loop.scheduler.config.maxModelLen generated pooled
          (Scheduler.rejectDrafts (scheduled.scheduledSpecDecodeTokens.getD entry.1 [])
            generated.length request)
        let loop := { loop with scheduler := loop.scheduler.store updated }
        let (kvTransferParams, loop) ← loop.stopRequest encoders connector request.status
          stopped updated
        loop.emit updated newTokenIds pooled kvTransferParams
          (results.promptLogprobs.contains entry.1)

end UpdateLoop

def removeAll (queue items : List Nat) : List Nat :=
  match items with
  | [] => queue
  | [item] => queue.erase item
  | items => queue.filter fun id => !items.contains id

namespace Scheduler

variable {H E : Type} (encoders : EncoderCacheManager H E)

def finishedSending (s : Scheduler H E) (id : Nat) : Except EngineError (Scheduler H E) :=
  match s.requests.get? id with
  | none => .error .schedulerAssertion
  | some request => s.freeBlocks request

def updateFromKvXferFinished (finishedRecving finishedSending : List Nat) (s : Scheduler H E) :
    Except EngineError (Scheduler H E) :=
  finishedSending.foldlM Scheduler.finishedSending { s with
    finishedRecvingKvReqIds :=
      finishedRecving.foldl (fun ids id => ids.insert id) s.finishedRecvingKvReqIds }

def updateFromOutput (connector : Option (KVConnector H)) (scheduled : SchedulerOutput)
    (results : ModelRunnerOutput) (s : Scheduler H E) :
    Except EngineError (List EngineCoreOutput × Scheduler H E) := do
  let loop ← scheduled.numScheduledTokens.entries.foldlM
    (UpdateLoop.updateRequest encoders connector scheduled results) ⟨s, [], [], []⟩
  let s := { loop.scheduler with
    running := removeAll loop.scheduler.running loop.stoppedRunningReqs
    waiting := loop.scheduler.waiting.filter fun id => !loop.stoppedPreemptedReqs.contains id }
  let s ← s.updateFromKvXferFinished results.finishedRecving results.finishedSending
  return (loop.outputs, s)

def updateDraftTokenIds (id : Nat) (specTokenIds : List Nat) (s : Scheduler H E) : Scheduler H E :=
  match s.requests.get? id with
  | none => s
  | some request =>
      if request.isFinished then s else s.store { request with specTokenIds := specTokenIds }

/-! ## Finishing from outside -/

def validRequests (ids : List Nat) (s : Scheduler H E) : List (Request H) :=
  ids.dedup.filterMap fun id => (s.requests.get? id).filter fun request => !request.isFinished

def runningIds (valid : List (Request H)) : List Nat :=
  (valid.filter fun request => request.status = .running).map (·.requestId)

def waitingIds (valid : List (Request H)) : List Nat :=
  (valid.filter fun request => request.status ≠ .running).map (·.requestId)

def finishRequest (connector : Option (KVConnector H)) (finishedStatus : RequestStatus)
    (s : Scheduler H E) (request : Request H) : Except EngineError (Scheduler H E) := do
  let request := { request with status := finishedStatus }
  let (_, s) ← (s.store request).freeRequest encoders connector request
  return s

def finishRequests (connector : Option (KVConnector H)) (ids : List Nat)
    (finishedStatus : RequestStatus) (s : Scheduler H E) : Except EngineError (Scheduler H E) :=
  if !finishedStatus.isFinished then .error .schedulerAssertion
  else
    let valid := s.validRequests ids
    valid.foldlM (finishRequest encoders connector finishedStatus) { s with
      running := removeAll s.running (runningIds valid)
      waiting := s.waiting.filter fun id => !(waitingIds valid).contains id }

def unpinRequest (id : Nat) (s : Scheduler H E) : Except EngineError (Scheduler H E) := do
  let kv ← s.kv.unpinRequest id
  return { s with kv := kv }

end Scheduler

end Kalypso.Engine
