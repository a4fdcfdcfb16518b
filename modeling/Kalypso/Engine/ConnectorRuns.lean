import Kalypso.Engine.SchedulerRuns

/-!
# Runs with a KV connector

With a KV connector a finished request may stay stored although it is not pinned, and blocks are
loaded while a request waits.  What holds in every state nevertheless: requests are stored under
their own ids, their hashes are those of the hasher, and the block tables and the pool agree.
-/

set_option autoImplicit false

namespace Kalypso.Engine

open Kalypso.Lib
open ScheduleLoop

namespace Scheduler

variable {H E : Type} {hasher : Option (BlockHasher H)} {s s' : Scheduler H E}

structure Consistent (hasher : Option (BlockHasher H)) (s : Scheduler H E) : Prop where
  isHasher : s.hasher = hasher
  ok : s.kv.Ok
  stored : ∀ id request, s.requests.get? id = some request →
    request.requestId = id ∧ request.Hashed hasher

namespace Consistent

theorem init (config : SchedulerConfig) (hasher : Option (BlockHasher H)) (kvConfig : KVCacheConfig)
    (encoder : E) : Consistent hasher (Scheduler.init config hasher kvConfig encoder) :=
  ⟨rfl, KVCacheManager.init_ok kvConfig, fun _ _ found => (nomatch found)⟩

theorem store (consistent : Consistent hasher s) (request : Request H)
    (hashed : request.Hashed hasher) : Consistent hasher (s.store request) :=
  ⟨consistent.isHasher, consistent.ok, Dict.forall_set ⟨rfl, hashed⟩ consistent.stored⟩

/-- The other fields do not matter. -/
theorem congr (consistent : Consistent hasher s) (sameHasher : s'.hasher = s.hasher)
    (sameKv : s'.kv = s.kv) (sameRequests : s'.requests = s.requests) : Consistent hasher s' :=
  ⟨sameHasher.trans consistent.isHasher, sameKv ▸ consistent.ok, sameRequests ▸ consistent.stored⟩

theorem withKv (consistent : Consistent hasher s) {kv : KVCacheManager H} (ok : kv.Ok) :
    Consistent hasher { s with kv := kv } :=
  ⟨consistent.isHasher, ok, consistent.stored⟩

theorem erase (consistent : Consistent hasher s) (id : Nat) :
    Consistent hasher { s with requests := s.requests.erase id } :=
  ⟨consistent.isHasher, consistent.ok, fun other request found =>
    consistent.stored other request (Dict.get?_of_erase found)⟩

theorem update (consistent : Consistent hasher s) {id : Nat} {old request : Request H}
    (found : s.requests.get? id = some old) (same : request.blockHashes = old.blockHashes) :
    Consistent hasher (s.store request) :=
  consistent.store request ((consistent.stored id old found).2.of_blockHashes same)

/-! ### Freeing -/

variable {encoders : EncoderCacheManager H E}

section

variable (consistent : Consistent hasher s)

include consistent

theorem free (id : Nat) : Gives (fun kv => Consistent hasher { s with kv := kv }) (s.kv.free id) :=
  ((consistent.ok.free id).mono fun _ effect => consistent.withKv effect.1.1.ok).weaken
    fun _ _ => trivial

theorem preemptRequest {id : Nat} {victim : Request H} (found : s.requests.get? id = some victim) :
    Gives (Consistent hasher) (s.preemptRequest encoders victim) := by
  unfold Scheduler.preemptRequest
  split
  · exact trivial
  · refine (consistent.free victim.requestId).bind fun kv freed => ?_
    have updated : Consistent hasher ({ s with kv := kv }.store { victim with
        status := .preempted
        numComputedTokens := 0
        numPreemptions := victim.numPreemptions + 1 }) := freed.update found rfl
    exact updated.congr rfl rfl rfl

theorem freeBlocks (request : Request H) : Gives (Consistent hasher) (s.freeBlocks request) := by
  refine (freeBlocks_meets request s).mono ?_
  rintro s' ⟨kv, frees, rfl⟩
  exact ((consistent.free request.requestId).ok frees).erase request.requestId

theorem freeRequest {connector : Option (KVConnector H)} {request : Request H} :
    Gives (fun (_, s') => Consistent hasher s')
      (s.freeRequest encoders connector request) := by
  unfold Scheduler.freeRequest
  split
  · exact trivial
  · refine Meets.any.bind ?_
    rintro ⟨delays, params⟩ -
    dsimp only
    split
    · refine (freeBlocks ?_ request).bind fun _ freed => freed
      exact consistent.congr rfl rfl rfl
    · exact consistent.congr rfl rfl rfl

theorem finishedSending (id : Nat) : Gives (Consistent hasher) (s.finishedSending id) := by
  unfold Scheduler.finishedSending
  split
  · exact trivial
  · exact consistent.freeBlocks _

theorem updateFromKvXferFinished (finishedRecving finishedSending : List Nat) :
    Gives (Consistent hasher)
      (s.updateFromKvXferFinished finishedRecving finishedSending) :=
  Meets.foldlM _ _ (fun id _ _ held => held.finishedSending id)
    (consistent.congr rfl rfl rfl)

end

/-! ### The output of a step and the other calls -/

variable {loop : ScheduleLoop H E} {request : Request H}

theorem updateRequest {loop : UpdateLoop H E} (consistent : Consistent hasher loop.scheduler)
    {connector : Option (KVConnector H)} {scheduled : SchedulerOutput} {results : ModelRunnerOutput}
    {entry : Nat × Int} :
    Gives (fun loop' => Consistent hasher loop'.scheduler)
      (loop.updateRequest encoders connector scheduled results entry) := by
  refine UpdateLoop.updateRequest_meets consistent.isHasher (fun _ => consistent) ?_
  intro request stopped updated found result
  have stored : Consistent hasher (loop.scheduler.store updated) :=
    consistent.store updated (result.later.hashed (consistent.stored _ _ found).2)
  unfold UpdateLoop.stopRequest
  split
  · exact fun _ _ _ => stored
  · refine (stored.freeRequest).bind ?_
    rintro ⟨params, s'⟩ freed
    dsimp only
    split
    · exact fun _ _ _ => freed
    · exact fun _ _ _ => freed

theorem updateFromOutput (consistent : Consistent hasher s) {connector : Option (KVConnector H)}
    {scheduled : SchedulerOutput} {results : ModelRunnerOutput} :
    Gives (fun (_, s') => Consistent hasher s')
      (s.updateFromOutput encoders connector scheduled results) := by
  unfold Scheduler.updateFromOutput
  refine Meets.bind (P := fun loop => Consistent hasher loop.scheduler)
    (Meets.foldlM _ _ (fun entry _ loop held => ?_) consistent) fun loop held => ?_
  · exact held.updateRequest
  · refine (updateFromKvXferFinished ?_ _ _).bind fun s' last => last
    exact held.congr rfl rfl rfl

theorem finishRequests (consistent : Consistent hasher s) {connector : Option (KVConnector H)}
    {ids : List Nat} {finishedStatus : RequestStatus} :
    Gives (Consistent hasher)
      (s.finishRequests encoders connector ids finishedStatus) := by
  unfold Scheduler.finishRequests
  split
  · exact trivial
  · refine Meets.foldlM _ _ (fun request member s₁ held => ?_) ?_
    · obtain ⟨id, -, found, -⟩ := mem_validRequests.mp member
      unfold finishRequest
      have stored := held.store { request with status := finishedStatus }
        ((consistent.stored id request found).2.of_blockHashes rfl)
      exact (stored.freeRequest).bind fun (_, _) freed => freed
    · exact consistent.congr rfl rfl rfl

/-! ### The running requests -/

theorem preempts {loop' : ScheduleLoop H E} {victim : Request H}
    (consistent : Consistent hasher loop.scheduler)
    (preempts : ScheduleLoop.Preempts encoders loop victim loop') :
    Consistent hasher loop'.scheduler := by
  cases preempts with
  | @intro rest s takes preempted =>
    obtain ⟨id, stored, same, -, -⟩ := takes.removes
    have taken : Consistent hasher rest.scheduler := by
      rw [same]
      exact consistent.congr rfl rfl rfl
    have found : rest.scheduler.requests.get? id = some victim := by
      rw [same]
      exact stored
    exact (taken.preemptRequest found).ok preempted

theorem scheduleSpecTokens (loop : ScheduleLoop H E) (consistent : Consistent hasher loop.scheduler)
    (hashed : request.Hashed hasher) (numNewTokens : Int) :
    Consistent hasher (loop.scheduleSpecTokens request numNewTokens).scheduler := by
  have dropped : Consistent hasher (loop.scheduler.store { request with specTokenIds := [] }) :=
    consistent.store _ (hashed.of_blockHashes rfl)
  obtain ⟨s, drafts, same, rfl | rfl⟩ := loop.scheduleSpecTokens_spec request numNewTokens
  · rw [same]
    exact consistent
  · rw [same]
    exact dropped

variable [DecidableEq H] (collisionFree : ∀ h ∈ hasher, h.CollisionFree)

include collisionFree in
theorem allocateSlots (consistent : Consistent hasher s) {args : KVCacheManager.SlotArgs H}
    (issued : args.Issued hasher s.kv) :
    Gives (fun (_, kv) => Consistent hasher { s with kv := kv })
      (s.kv.allocateSlots args) :=
  ((consistent.ok.allocateSlots (issued.valid collisionFree)).mono fun (_, _) effect =>
    consistent.withKv effect.ok).weaken fun _ _ => trivial

include collisionFree in
theorem allocates {loop' : ScheduleLoop H E} {numNewTokens : Int}
    {newBlocks : Option (List (List Nat))} (hashed : request.Hashed hasher)
    (allocates : ScheduleLoop.Allocates encoders request numNewTokens loop
      newBlocks loop') :
    Consistent hasher loop.scheduler → Consistent hasher loop'.scheduler := by
  induction allocates with
  | fits gives =>
    exact fun held => (held.allocateSlots collisionFree ⟨hashed, Or.inl rfl⟩).ok gives
  | self gives preempts isSelf =>
    intro held
    have allocated := (held.allocateSlots collisionFree ⟨hashed, Or.inl rfl⟩).ok gives
    exact Consistent.preempts allocated preempts
  | other gives preempts isOther later ih =>
    intro held
    have allocated := (held.allocateSlots collisionFree ⟨hashed, Or.inl rfl⟩).ok gives
    exact ih (Consistent.preempts allocated preempts)

include collisionFree in
theorem turn {loop' : ScheduleLoop H E} {goesOn : Bool}
    (consistent : Consistent hasher loop.scheduler) (hashed : request.Hashed hasher)
    (turn : ScheduleLoop.Turn encoders request loop goesOn loop') :
    Consistent hasher loop'.scheduler := by
  have encodes : ∀ encoder, Consistent hasher (loop.withEncoder encoder).scheduler :=
    fun _ => consistent.congr rfl rfl rfl
  cases turn with
  | awaits awaits => exact consistent
  | idle notAwaits plans noTokens =>
    obtain ⟨encoder, rfl⟩ := (tryScheduleEncoderInputs_spec _ _ _ _).ok plans
    exact encodes encoder
  | preempted notAwaits plans hasTokens allocates =>
    obtain ⟨encoder, rfl⟩ := (tryScheduleEncoderInputs_spec _ _ _ _).ok plans
    exact Consistent.allocates collisionFree hashed allocates (encodes encoder)
  | @scheduled plan _ allocated _ newBlocks notAwaits plans hasTokens allocates allots =>
    obtain ⟨encoder, rfl⟩ := (tryScheduleEncoderInputs_spec _ _ _ _).ok plans
    obtain ⟨_, _, _, rfl⟩ := (allocateEncoderInputs_spec _ plan _).ok allots
    have fits := Consistent.allocates collisionFree hashed allocates (encodes encoder)
    have dropped := scheduleSpecTokens (allocated.scheduled request newBlocks plan.numNewTokens)
      fits hashed plan.numNewTokens
    exact dropped.congr rfl rfl rfl

include collisionFree in
theorem scheduleRunning (bound : Nat) {loop : ScheduleLoop H E}
    (consistent : Consistent hasher loop.scheduler) :
    Gives (fun loop' => Consistent hasher loop'.scheduler)
      (loop.scheduleRunning encoders bound) := by
  refine .of_ok fun loop' ran => ?_
  refine scheduleRunning_invariant (P := fun loop => Consistent hasher loop.scheduler)
    ?_ bound consistent ran
  intro middle last id request goesOn held _ _ found turn
  exact held.turn collisionFree (held.stored id request found).2 turn

/-! ### The waiting requests -/

theorem cacheBlocks (consistent : Consistent hasher s) (request : Request H) (numTokens : Int) :
    Gives (fun kv => Consistent hasher { s with kv := kv })
      (s.kv.cacheBlocks request numTokens) := by
  unfold KVCacheManager.cacheBlocks
  split
  · exact ((consistent.ok.cacheBlocks request numTokens).mono fun _ effect =>
      consistent.withKv effect.ok).weaken fun _ _ => trivial
  · exact consistent

theorem updateWaitingForRemoteKv (consistent : Consistent hasher s) (hasConnector : Bool)
    (hashed : request.Hashed hasher) :
    Gives
      (fun (_, updated, s') => Consistent hasher s' ∧ updated.Hashed hasher)
      (updateWaitingForRemoteKv hasConnector request s) := by
  unfold ScheduleLoop.updateWaitingForRemoteKv
  dsimp only
  split
  · exact trivial
  · split
    · exact ⟨consistent, hashed⟩
    · split
      · split
        · exact (consistent.cacheBlocks request _).bind fun kv loaded =>
            ⟨loaded.congr rfl rfl rfl, hashed⟩
        · exact (consistent.free _).bind fun kv loaded => ⟨loaded.congr rfl rfl rfl, hashed⟩
      · split
        · refine (consistent.cacheBlocks request _).bind fun kv loaded => ?_
          have isHashed : ∀ n : Int,
              ({ request with numComputedTokens := n } : Request H).Hashed hasher :=
            fun _ => hashed.of_blockHashes rfl
          exact ⟨⟨consistent.isHasher, loaded.ok, (consistent.store _ (isHashed _)).stored⟩,
            isHashed _⟩
        · exact trivial

theorem readyRequest (consistent : Consistent hasher s) (hasConnector : Bool)
    (hashed : request.Hashed hasher) :
    Gives
      (fun (ready, s') => Consistent hasher s' ∧ ∀ r, ready = some r → r.Hashed hasher)
      (readyRequest hasConnector request s) := by
  have waits : ∀ s' : Scheduler H E, Consistent hasher s' →
      Consistent hasher s' ∧ ∀ r : Request H, none = some r → r.Hashed hasher :=
    fun _ held => ⟨held, fun _ isSome => (nomatch isSome)⟩
  have ready : ∀ (s' : Scheduler H E) (r : Request H), Consistent hasher s' → r.Hashed hasher →
      Consistent hasher s' ∧ ∀ r', some r = some r' → r'.Hashed hasher :=
    fun _ r held isHashed => ⟨held, fun _ isSome => Option.some.inj isSome ▸ isHashed⟩
  unfold ScheduleLoop.readyRequest
  dsimp only
  split
  · refine (consistent.updateWaitingForRemoteKv hasConnector hashed).bind ?_
    rintro ⟨isReady, updated, s'⟩ ⟨held, updatedHashed⟩
    have isHashed : ({ updated with status := .waiting } : Request H).Hashed hasher :=
      updatedHashed.of_blockHashes rfl
    dsimp only
    split
    · exact ready _ _ (held.store _ isHashed) isHashed
    · exact waits _ held
  · have isHashed : ({ request with status := .waiting } : Request H).Hashed hasher :=
      hashed.of_blockHashes rfl
    split
    · exact ready _ _ (consistent.store _ isHashed) isHashed
    · exact waits _ consistent
  · exact ready _ _ consistent hashed

include collisionFree in
theorem admitRequest (loop : ScheduleLoop H E) (consistent : Consistent hasher loop.scheduler)
    {connector : Option (KVConnector H)} (hashed : request.Hashed hasher) :
    Gives (fun (_, loop') => Consistent hasher loop'.scheduler)
      (loop.admitRequest encoders connector request) := by
  unfold ScheduleLoop.admitRequest
  refine (computedTokens_meets connector request _).bind fun computed known => ?_
  cases computed with
  | none => exact consistent
  | some computed =>
    have hit := (known computed rfl).2
    refine (waitingNumNewTokens_spec request computed loop).bind ?_
    rintro ⟨plan, _⟩ ⟨encoder, rfl⟩
    have first : Consistent hasher (loop.withEncoder encoder).scheduler :=
      consistent.congr rfl rfl rfl
    cases plan with
    | none => exact first
    | some plan =>
      have issued : (waitingSlotArgs request computed plan.numNewTokens
          loop.scheduler.config).Issued hasher loop.scheduler.kv := ⟨hashed, hit⟩
      refine (first.allocateSlots collisionFree issued).bind ?_
      rintro ⟨newBlocks, kv⟩ allocated
      dsimp only
      split
      · exact allocated
      · split
        · exact Consistent.store allocated _ (hashed.of_blockHashes rfl)
        · have started := allocated.store (startedRequest request computed)
            (hashed.of_blockHashes rfl)
          refine (runRequest_spec request computed plan _).bind ?_
          rintro last ⟨_, same, -⟩
          change Consistent hasher last.scheduler
          rw [same]
          exact started.congr rfl rfl rfl

include collisionFree in
theorem scheduleWaitingRequest (consistent : Consistent hasher loop.scheduler)
    {connector : Option (KVConnector H)} (id : Nat) :
    Gives (fun (_, loop') => Consistent hasher loop'.scheduler)
      (loop.scheduleWaitingRequest encoders connector id) := by
  unfold ScheduleLoop.scheduleWaitingRequest
  refine (find_meets id loop.scheduler).bind fun request found => ?_
  refine (consistent.readyRequest connector.isSome (consistent.stored id request found).2).bind ?_
  rintro ⟨ready, s'⟩ ⟨held, readyHashed⟩
  cases ready with
  | none => exact held
  | some ready =>
    dsimp only
    split
    · exact held
    · exact admitRequest collisionFree (loop.withScheduler s') held (readyHashed ready rfl)

include collisionFree in
theorem scheduleWaiting {connector : Option (KVConnector H)} (queue : List Nat) :
    ∀ {loop : ScheduleLoop H E}, Consistent hasher loop.scheduler →
      Gives (fun loop' => Consistent hasher loop'.scheduler)
        (loop.scheduleWaiting encoders connector queue) := by
  induction queue with
  | nil => exact fun consistent => consistent.congr rfl rfl rfl
  | cons id rest ih =>
    intro loop consistent
    rw [ScheduleLoop.scheduleWaiting]
    dsimp only
    split
    · exact consistent.congr rfl rfl rfl
    · refine (consistent.scheduleWaitingRequest collisionFree id).bind ?_
      rintro ⟨admission, loop'⟩ held
      cases admission with
      | stop => exact held.congr rfl rfl rfl
      | start => exact ih held
      | skip => exact ih held

include collisionFree in
theorem schedule (consistent : Consistent hasher s) {connector : Option (KVConnector H)} :
    Gives (fun (_, s') => Consistent hasher s')
      (s.schedule encoders connector) := by
  have requests : Gives (fun loop => Consistent hasher loop.scheduler)
      (s.scheduleRequests encoders connector) := by
    unfold scheduleRequests
    refine (scheduleRunning collisionFree _ consistent).bind fun loop first => ?_
    refine loop.recordLoras_spec.bind ?_
    rintro _ ⟨loras, rfl⟩
    have second : Consistent hasher { loop with scheduledLoras := loras }.scheduler := first
    unfold scheduleWaitingUnlessPreempted
    split
    · exact second
    · refine (scheduleWaiting collisionFree _ second).bind ?_
      exact fun loop' held => held.congr rfl rfl rfl
  unfold Scheduler.schedule
  refine requests.bind fun loop scheduled => ?_
  split
  · exact trivial
  · refine Meets.bind (P := Consistent hasher) (Meets.foldlM _ _ (fun entry _ s₁ held => ?_) ?_) ?_
    · unfold advance
      refine (find_meets entry.1 s₁).bind fun request found => ?_
      have advanced : Consistent hasher (s₁.store
          { request with numComputedTokens := request.numComputedTokens + entry.2 }) :=
        held.update found rfl
      dsimp only
      split
      · exact advanced.congr rfl rfl rfl
      · exact advanced
    · exact scheduled.congr rfl rfl rfl
    · exact fun s' held => held.congr rfl rfl rfl

end Consistent

/-! ## Runs -/

variable [DecidableEq H]

def ConnectorStep (encoders : EncoderCacheManager H E) (s : Scheduler H E)
    (op : Option (KVConnector H) × SchedulerOp) (s' : Scheduler H E) : Prop :=
  s.execWith encoders op.1 op.2 = .ok s'

variable {encoders : EncoderCacheManager H E}
  (collisionFree : ∀ h ∈ hasher, h.CollisionFree)

include collisionFree in
theorem ConnectorStep.consistent {op : Option (KVConnector H) × SchedulerOp}
    (step : ConnectorStep encoders s op s') (consistent : Consistent hasher s) :
    Consistent hasher s' := by
  obtain ⟨connector, op⟩ := op
  cases op with
  | add request =>
    obtain ⟨added, builds, adds⟩ := bind_eq_ok.mp step
    have hashed := ((fromEngineCoreRequest_meets s.hasher request).ok builds).2.1
    rw [consistent.isHasher] at hashed
    cases adds
    have stored := consistent.store added hashed
    exact stored.congr rfl rfl rfl
  | schedule =>
    obtain ⟨⟨output, s₁⟩, schedules, same⟩ := bind_eq_ok.mp step
    cases same
    exact (consistent.schedule collisionFree).ok schedules
  | update scheduled results =>
    obtain ⟨⟨outputs, s₁⟩, updates, same⟩ := bind_eq_ok.mp step
    cases same
    exact (consistent.updateFromOutput).ok updates
  | finish ids finishedStatus =>
    exact (consistent.finishRequests).ok step
  | pin id =>
    cases step
    exact consistent.withKv (consistent.ok.pinRequest id).ok
  | unpin id =>
    obtain ⟨kv, unpins, same⟩ := bind_eq_ok.mp step
    cases same
    exact consistent.withKv ((consistent.ok.unpinRequest id).ok unpins).1.ok
  | compileGrammar id =>
    cases step
    unfold compileGrammar
    split
    · exact consistent
    · rename_i request found
      exact consistent.update found rfl
  | updateDraftTokenIds id specTokenIds =>
    cases step
    unfold updateDraftTokenIds
    split
    · exact consistent
    · rename_i request found
      split
      · exact consistent
      · exact consistent.update found rfl

include collisionFree in
theorem consistent_of_trace {config : SchedulerConfig} {kvConfig : KVCacheConfig} {encoder : E}
    {ops : List (Option (KVConnector H) × SchedulerOp)}
    (run : Trace (ConnectorStep encoders) (init config hasher kvConfig encoder) ops s) :
    Consistent hasher s :=
  run.invariant (fun _ _ _ step held => step.consistent collisionFree held)
    (.init config hasher kvConfig encoder)

end Scheduler

end Kalypso.Engine
