import Kalypso.Engine.ConnectorRuns

/-!
# Requests aborted during a step

`finish_requests` may be called for a request that is part of a step still being executed.  The
following `update_from_output` skips the request only if it is not stored any more, which is not
so for a pinned request, nor for one whose blocks the connector still sends.
-/

set_option autoImplicit false

namespace Kalypso.Engine

open Kalypso.Lib

def Request.withStatus {H : Type} (status : RequestStatus) (request : Request H) : Request H :=
  { request with status := status }

def Request.visible {H : Type} (request : Request H) : RequestStatus × List Nat × List Nat :=
  (request.status, request.allTokenIds, request.outputTokenIds)

namespace Scheduler

variable {H E : Type} {hasher : Option (BlockHasher H)} {s s' s'' : Scheduler H E} {id : Nat}
  {request : Request H} {encoders : EncoderCacheManager H E}

def delaysFree (connector : Option (KVConnector H)) (request : Request H)
    (blocks : List (List Nat)) : Bool :=
  match connector with
  | none => false
  | some connector => (connector.requestFinished request blocks).1

def dropsRequest (connector : Option (KVConnector H)) (request : Request H)
    (blocks : List (List Nat)) : Bool :=
  !delaysFree connector request blocks && request.pinned == false

theorem connectorFinished_meets (connector : Option (KVConnector H)) (request : Request H)
    (s : Scheduler H E) :
    Gives
      (fun answer => answer.1 = delaysFree connector request (s.kv.getBlocks request.requestId))
      (s.connectorFinished connector request) := by
  unfold connectorFinished
  split
  · rfl
  · split
    · exact trivial
    · rfl

/-! ## Other requests -/

structure Keeps (id : Nat) (s s' : Scheduler H E) : Prop where
  requests : s'.requests.get? id = s.requests.get? id
  blocks : s'.kv.getBlocks id = s.kv.getBlocks id

theorem Keeps.refl (id : Nat) (s : Scheduler H E) : Keeps id s s := ⟨rfl, rfl⟩

theorem Keeps.trans (first : Keeps id s s') (second : Keeps id s' s'') : Keeps id s s'' :=
  ⟨second.requests.trans first.requests, second.blocks.trans first.blocks⟩

theorem Keeps.store (request : Request H) (different : id ≠ request.requestId) (s : Scheduler H E) :
    Keeps id s (s.store request) :=
  ⟨Dict.get?_set_of_ne _ _ different, rfl⟩

theorem freeBlocks_keeps (ok : s.kv.Ok) (different : id ≠ request.requestId) :
    Gives (Keeps id s) (s.freeBlocks request) := by
  refine (freeBlocks_meets request s).mono ?_
  rintro s' ⟨kv, frees, rfl⟩
  have effect := ((ok.free request.requestId).ok frees).1.1
  exact ⟨Dict.get?_erase_of_ne _ different,
    KVCacheManager.getBlocks_of_frame different effect.frame⟩

theorem freeRequest_keeps (ok : s.kv.Ok) {connector : Option (KVConnector H)} (request : Request H)
    (different : id ≠ request.requestId) :
    Gives (fun (_, s') => Keeps id s s')
      (s.freeRequest encoders connector request) := by
  unfold freeRequest
  split
  · exact trivial
  · refine Meets.any.bind ?_
    rintro ⟨delays, params⟩ -
    dsimp only
    split
    · refine (freeBlocks_keeps ?_ different).bind fun s' keeps => ?_
      · exact ok
      · exact ⟨keeps.requests, keeps.blocks⟩
    · exact ⟨rfl, rfl⟩

/-! ## The aborted request -/

structure Fate (connector : Option (KVConnector H)) (blocks : List (List Nat))
    (finished : Request H) (s : Scheduler H E) : Prop where
  dropped : dropsRequest connector finished blocks = true →
    s.requests.get? finished.requestId = none
  kept : dropsRequest connector finished blocks = false →
    s.requests.get? finished.requestId = some finished

theorem Fate.keeps {connector : Option (KVConnector H)} {blocks : List (List Nat)}
    (fate : Fate connector blocks request s) (keeps : Keeps request.requestId s s') :
    Fate connector blocks request s' :=
  ⟨fun drops => keeps.requests.trans (fate.dropped drops),
    fun stays => keeps.requests.trans (fate.kept stays)⟩

theorem freeRequest_fate {connector : Option (KVConnector H)}
    (stored : s.requests.get? request.requestId = some request) :
    Gives
      (fun (_, s') => Fate connector (s.kv.getBlocks request.requestId) request s')
      (s.freeRequest encoders connector request) := by
  unfold freeRequest
  split
  · exact trivial
  · refine (connectorFinished_meets connector request s).bind ?_
    rintro ⟨delays, params⟩ isAnswer
    dsimp only at isAnswer ⊢
    subst isAnswer
    split
    · rename_i drops
      refine (freeBlocks_meets request _).bind ?_
      rintro s' ⟨kv, -, rfl⟩
      refine ⟨fun _ => Dict.get?_erase_self _ _, fun keeps => ?_⟩
      cases drops.symm.trans keeps
    · rename_i keeps
      exact ⟨fun drops => absurd drops keeps, fun _ => stored⟩

section

variable {connector : Option (KVConnector H)} {finishedStatus : RequestStatus}

theorem finishRequest_keeps (consistent : Consistent hasher s) (different : id ≠ request.requestId)
    (hashed : request.Hashed hasher) :
    Gives (fun s' => Keeps id s s' ∧ Consistent hasher s')
      (s.finishRequest encoders connector finishedStatus request) := by
  have stored := consistent.store (request.withStatus finishedStatus) (hashed.of_blockHashes rfl)
  have toStored : Keeps id s (s.store (request.withStatus finishedStatus)) :=
    .store (request.withStatus finishedStatus) different s
  unfold finishRequest
  refine ((freeRequest_keeps stored.ok (request.withStatus finishedStatus) different).and
    stored.freeRequest).bind ?_
  rintro ⟨params, s'⟩ ⟨keeps, held⟩
  exact ⟨toStored.trans keeps, held⟩

theorem finishRequest_fate (consistent : Consistent hasher s) (hashed : request.Hashed hasher) :
    Gives
      (fun s' => Fate connector (s.kv.getBlocks request.requestId)
        (request.withStatus finishedStatus) s' ∧ Consistent hasher s')
      (s.finishRequest encoders connector finishedStatus request) := by
  have stored := consistent.store (request.withStatus finishedStatus) (hashed.of_blockHashes rfl)
  unfold finishRequest
  refine ((freeRequest_fate (Dict.get?_set_self _ _ _)).and stored.freeRequest).bind ?_
  rintro ⟨params, s'⟩ ⟨fate, held⟩
  exact ⟨fate, held⟩

end

theorem finishRequests_fate {connector : Option (KVConnector H)} {finishedStatus : RequestStatus}
    (consistent : Consistent hasher s) (stored : s.requests.get? request.requestId = some request)
    (unfinished : request.isFinished = false) {ids : List Nat} (listed : request.requestId ∈ ids) :
    Gives
      (fun s' => Fate connector (s.kv.getBlocks request.requestId)
        (request.withStatus finishedStatus) s' ∧ Consistent hasher s')
      (s.finishRequests encoders connector ids finishedStatus) := by
  have nodup := nodup_validRequests (fun id other found => (consistent.stored id other found).1) ids
  have hashed : ∀ other ∈ s.validRequests ids, other.Hashed hasher := by
    intro other member
    obtain ⟨id, -, found, -⟩ := mem_validRequests.mp member
    exact (consistent.stored id other found).2
  have isValid : request ∈ s.validRequests ids :=
    mem_validRequests.mpr ⟨request.requestId, listed, stored, unfinished⟩
  unfold finishRequests
  split
  · exact trivial
  · refine Meets.foldlM_once
      (P := fun s' => Keeps request.requestId s s' ∧ Consistent hasher s') (k := request.requestId)
      _ _ nodup (List.mem_map_of_mem isValid) ?_ ?_ ?_ ⟨⟨rfl, rfl⟩, ?_⟩
    · rintro other member different s₁ ⟨keeps, held⟩
      exact (finishRequest_keeps held different.symm (hashed other member)).mono
        fun _ ⟨more, held⟩ => ⟨keeps.trans more, held⟩
    · rintro other member same s₁ ⟨keeps, held⟩
      have isRequest : other = request :=
        List.inj_on_of_nodup_map nodup member isValid same
      subst isRequest
      rw [← keeps.blocks]
      exact finishRequest_fate held (hashed other member)
    · rintro other member different s₁ ⟨fate, held⟩
      exact (finishRequest_keeps held different.symm (hashed other member)).mono
        fun _ ⟨more, held⟩ => ⟨fate.keeps more, held⟩
    · exact consistent.congr rfl rfl rfl

end Scheduler

/-! ## The output of the step -/

namespace UpdateLoop

open Scheduler

variable {H E : Type} {hasher : Option (BlockHasher H)} {loop loop' loop'' : UpdateLoop H E}
  {id : Nat}
  {request : Request H} {encoders : EncoderCacheManager H E}
  {connector : Option (KVConnector H)} {scheduled : SchedulerOutput} {results : ModelRunnerOutput}

structure Passes (id : Nat) (loop loop' : UpdateLoop H E) : Prop where
  keeps : Scheduler.Keeps id loop.scheduler loop'.scheduler
  grows : ∀ output ∈ loop.outputs, output ∈ loop'.outputs
  others : ∀ output ∈ loop'.outputs, output ∈ loop.outputs ∨ output.requestId ≠ id

theorem Passes.refl (id : Nat) (loop : UpdateLoop H E) : Passes id loop loop :=
  ⟨.refl id _, fun _ member => member, fun _ member => Or.inl member⟩

theorem Passes.trans (first : Passes id loop loop') (second : Passes id loop' loop'') :
    Passes id loop loop'' := by
  refine ⟨first.keeps.trans second.keeps, fun output member => ?_, fun output member => ?_⟩
  · exact second.grows output (first.grows output member)
  · rcases second.others output member with earlier | other
    · exact first.others output earlier
    · exact Or.inr other

theorem updateRequest_passes (consistent : Consistent hasher loop.scheduler) {entry : Nat × Int}
    (different : id ≠ entry.1) :
    Gives (fun loop' => Passes id loop loop' ∧ Consistent hasher loop'.scheduler)
      (loop.updateRequest encoders connector scheduled results entry) := by
  refine Meets.and ?_ (consistent.updateRequest)
  refine updateRequest_meets consistent.isHasher (fun _ => Passes.refl id loop) ?_
  intro request stopped updated found result
  obtain ⟨isId, hashed⟩ := consistent.stored _ _ found
  have different' : id ≠ updated.requestId := by
    rw [result.later.sameId, isId]
    exact different
  have stored : Consistent hasher (loop.scheduler.store updated) :=
    consistent.store updated (result.later.hashed hashed)
  have toStored : Scheduler.Keeps id loop.scheduler (loop.scheduler.store updated) :=
    .store updated different' _
  have stops : Gives
      (fun result => Scheduler.Keeps id loop.scheduler result.2.scheduler ∧
        result.2.outputs = loop.outputs)
      ({ loop with scheduler := loop.scheduler.store updated }.stopRequest encoders
        connector request.status stopped updated) := by
    unfold stopRequest
    split
    · exact ⟨toStored, rfl⟩
    · refine (freeRequest_keeps stored.ok updated different').bind ?_
      rintro ⟨params, s'⟩ keeps
      dsimp only
      split
      · exact ⟨toStored.trans keeps, rfl⟩
      · exact ⟨toStored.trans keeps, rfl⟩
  refine stops.mono ?_
  rintro ⟨params, loop₁⟩ ⟨keeps, sameOutputs⟩ more ofRequest -
  refine ⟨keeps, fun output member => ?_, fun output member => ?_⟩
  · exact List.mem_append_left _ (sameOutputs ▸ member)
  · rcases List.mem_append.mp member with earlier | new
    · exact Or.inl (sameOutputs ▸ earlier)
    · refine Or.inr ?_
      rw [ofRequest output new]
      exact different'.symm

/-- A part of `update_from_output` that leaves the request's status, tokens and blocks. -/
structure Spares (id : Nat) (loop loop' : UpdateLoop H E) : Prop where
  silent : ∀ output ∈ loop'.outputs, output ∈ loop.outputs ∨ output.requestId ≠ id
  requests : (loop'.scheduler.requests.get? id).map Request.visible =
    (loop.scheduler.requests.get? id).map Request.visible
  blocks : loop'.scheduler.kv.getBlocks id = loop.scheduler.kv.getBlocks id

theorem Passes.spares (passes : Passes id loop loop') : Spares id loop loop' :=
  ⟨passes.others, by rw [passes.keeps.requests], passes.keeps.blocks⟩

theorem Spares.trans (first : Spares id loop loop') (second : Spares id loop' loop'') :
    Spares id loop loop'' := by
  refine ⟨fun output member => ?_, second.requests.trans first.requests,
    second.blocks.trans first.blocks⟩
  rcases second.silent output member with earlier | other
  · exact first.silent output earlier
  · exact Or.inr other

theorem updateRequest_of_absent {entry : Nat × Int}
    (absent : loop.scheduler.requests.get? entry.1 = none) :
    Gives (fun loop' => loop' = loop)
      (loop.updateRequest encoders connector scheduled results entry) := by
  unfold updateRequest
  split
  · exact trivial
  · rw [absent]
    rfl

theorem processResults_of_nothing (hasher : Option (BlockHasher H)) (maxModelLen : Nat)
    (request : Request H) :
    Gives (fun result => result = ([], false, request))
      (processResults hasher maxModelLen [] none request) := by
  simp [processResults, Meets]

theorem visible_rejectDrafts (scheduledSpecTokenIds : List Nat) (numGenerated : Nat)
    (request : Request H) :
    (rejectDrafts scheduledSpecTokenIds numGenerated request).visible = request.visible := by
  unfold rejectDrafts
  split
  · rfl
  · rfl

/-- A stored request without tokens and pooler output is only charged for its rejected drafts. -/
theorem updateRequest_of_nothing (consistent : Consistent hasher loop.scheduler) {entry : Nat × Int}
    (nothing : results.resultsOf entry.1 = .ok ([], none)) :
    Gives (fun loop' => Spares entry.1 loop loop')
      (loop.updateRequest encoders connector scheduled results entry) := by
  unfold updateRequest
  split
  · exact trivial
  · split
    · exact (Passes.refl entry.1 loop).spares
    · rename_i request found
      rw [nothing]
      refine Meets.bind (P := fun result => result = ([], none)) rfl ?_
      rintro _ rfl
      obtain ⟨later, -⟩ := rejectDrafts_later hasher
        (scheduled.scheduledSpecDecodeTokens.getD entry.1 []) 0 request
      have sameId := later.sameId.trans (consistent.stored _ _ found).1
      refine (processResults_of_nothing _ _ _).bind ?_
      rintro _ rfl
      refine (emit_meets
        (rejectDrafts (scheduled.scheduledSpecDecodeTokens.getD entry.1 []) 0 request)
        [] none none _ _).mono ?_
      rintro loop' ⟨more, rfl, -, isSilent⟩
      obtain rfl := isSilent.mpr ⟨rfl, rfl, rfl⟩
      refine ⟨fun output member => Or.inl ?_, ?_, rfl⟩
      · simpa using member
      · have stored := Dict.get?_set_self loop.scheduler.requests entry.1
          (rejectDrafts (scheduled.scheduledSpecDecodeTokens.getD entry.1 []) 0 request)
        rw [found]
        simp only [Scheduler.store, sameId, List.length_nil, stored, Option.map_some,
          visible_rejectDrafts]

theorem updateRequest_reports (consistent : Consistent hasher loop.scheduler) {entry : Nat × Int}
    (stored : loop.scheduler.requests.get? entry.1 = some request)
    (something : results.resultsOf entry.1 ≠ .ok ([], none)) :
    Gives (fun loop' => ∃ output ∈ loop'.outputs, output.requestId = entry.1)
      (loop.updateRequest encoders connector scheduled results entry) := by
  refine updateRequest_meets consistent.isHasher (fun absent => ?_) ?_
  · simp [stored] at absent
  · intro other stopped updated found result
    refine Meets.any.mono fun _ _ more ofRequest reports => ?_
    obtain ⟨output, member⟩ := List.exists_mem_of_ne_nil more fun none => something (reports none)
    refine ⟨output, List.mem_append_right _ member, ?_⟩
    rw [ofRequest output member, result.later.sameId]
    exact (consistent.stored _ _ found).1

/-! ### All entries of the step -/

section

variable {entries : List (Nat × Int)} (nodup : (entries.map Prod.fst).Nodup)
  (listed : id ∈ entries.map Prod.fst)

include nodup listed

theorem updateRequests_spare (loop : UpdateLoop H E) (consistent : Consistent hasher loop.scheduler)
    (nothing : loop.scheduler.requests.get? id = none ∨ results.resultsOf id = .ok ([], none)) :
    Gives (fun loop' => Spares id loop loop' ∧ Consistent hasher loop'.scheduler)
      (entries.foldlM (updateRequest encoders connector scheduled results) loop) := by
  refine Meets.foldlM_once
    (P := fun loop' => Passes id loop loop' ∧ Consistent hasher loop'.scheduler) _ _ nodup listed
    ?_ ?_ ?_ ⟨.refl id loop, consistent⟩
  · rintro entry - different loop₁ ⟨passes, held⟩
    exact (updateRequest_passes held different.symm).mono fun _ ⟨more, held⟩ =>
      ⟨passes.trans more, held⟩
  · rintro entry - rfl loop₁ ⟨passes, held⟩
    rcases nothing with absent | empty
    · refine (updateRequest_of_absent (passes.keeps.requests.trans absent)).mono ?_
      rintro _ rfl
      exact ⟨passes.spares, held⟩
    · exact ((updateRequest_of_nothing held empty).and (held.updateRequest)).mono
        fun _ ⟨more, held⟩ => ⟨passes.spares.trans more, held⟩
  · rintro entry - different loop₁ ⟨spares, held⟩
    exact (updateRequest_passes held different.symm).mono fun _ ⟨more, held⟩ =>
      ⟨spares.trans more.spares, held⟩

theorem updateRequests_report (loop : UpdateLoop H E)
    (consistent : Consistent hasher loop.scheduler)
    (stored : loop.scheduler.requests.get? id = some request)
    (something : results.resultsOf id ≠ .ok ([], none)) :
    Gives
      (fun loop' => (∃ output ∈ loop'.outputs, output.requestId = id) ∧
        Consistent hasher loop'.scheduler)
      (entries.foldlM (updateRequest encoders connector scheduled results) loop) := by
  refine Meets.foldlM_once
    (P := fun loop' => Passes id loop loop' ∧ Consistent hasher loop'.scheduler) _ _ nodup listed
    ?_ ?_ ?_ ⟨.refl id loop, consistent⟩
  · rintro entry - different loop₁ ⟨passes, held⟩
    exact (updateRequest_passes held different.symm).mono fun _ ⟨more, held⟩ =>
      ⟨passes.trans more, held⟩
  · rintro entry - rfl loop₁ ⟨passes, held⟩
    exact (updateRequest_reports held
      (passes.keeps.requests.trans stored) something).and
        (held.updateRequest)
  · rintro entry - different loop₁ ⟨⟨output, member, isOutput⟩, held⟩
    exact (updateRequest_passes held different.symm).mono fun _ ⟨more, held⟩ =>
      ⟨⟨output, more.grows output member, isOutput⟩, held⟩

end

end UpdateLoop

namespace Scheduler

variable {H E : Type} {hasher : Option (BlockHasher H)} {s s' : Scheduler H E} {id : Nat}
  {request : Request H} {encoders : EncoderCacheManager H E}

theorem finishedSending_keeps (consistent : Consistent hasher s) {sent : Nat}
    (different : id ≠ sent) :
    Gives (fun s' => Keeps id s s' ∧ Consistent hasher s') (s.finishedSending sent) := by
  refine Meets.and ?_ (consistent.finishedSending sent)
  unfold finishedSending
  split
  · exact trivial
  · rename_i request found
    refine freeBlocks_keeps consistent.ok ?_
    rw [(consistent.stored _ _ found).1]
    exact different

variable (hasher) in
theorem updateFromKvXferFinished_keeps (id : Nat) (consistent : Consistent hasher s)
    (recving sending : List Nat) :
    Gives (fun s' => id ∉ sending → Keeps id s s')
      (s.updateFromKvXferFinished recving sending) := by
  refine (Meets.foldlM (P := fun s' => (id ∉ sending → Keeps id s s') ∧ Consistent hasher s')
    _ _ ?_ ?_).mono fun _ held => held.1
  · rintro sent member s₁ ⟨keeps, held⟩
    by_cases notSent : id ∈ sending
    · exact (held.finishedSending sent).mono fun _ held =>
        ⟨fun absent => absurd notSent absent, held⟩
    · have different : id ≠ sent := fun same => notSent (same ▸ member)
      exact (finishedSending_keeps held different).mono fun _ ⟨more, held⟩ =>
        ⟨fun _ => (keeps notSent).trans more, held⟩
  · exact ⟨fun _ => ⟨rfl, rfl⟩, consistent.congr rfl rfl rfl⟩

theorem updateFromKvXferFinished_requests (recving sending : List Nat) :
    Gives
      (fun s' => ∀ id request,
        s'.requests.get? id = some request → s.requests.get? id = some request)
      (s.updateFromKvXferFinished recving sending) := by
  refine Meets.foldlM _ _ (fun sent _ s₁ held => ?_) fun _ _ found => found
  unfold finishedSending
  split
  · exact trivial
  · rename_i old _
    refine (freeBlocks_meets old s₁).mono ?_
    rintro s' ⟨kv, -, rfl⟩ id request found
    exact held id request (Dict.get?_of_erase found)

/-- What `update_from_output` may do with a request that was finished before: no output, the same
status and tokens, and no blocks freed unless they have been sent. -/
structure Unprocessed (id : Nat) (results : ModelRunnerOutput) (s : Scheduler H E)
    (outputs : List EngineCoreOutput) (s' : Scheduler H E) : Prop where
  silent : ∀ output ∈ outputs, output.requestId ≠ id
  unchanged : ∀ after, s'.requests.get? id = some after →
    ∃ before, s.requests.get? id = some before ∧ after.visible = before.visible
  notFreed : id ∉ results.finishedSending →
    s'.kv.getBlocks id = s.kv.getBlocks id ∧
      (s'.requests.get? id).isSome = (s.requests.get? id).isSome

section

variable {connector : Option (KVConnector H)} {scheduled : SchedulerOutput}
  {results : ModelRunnerOutput} (consistent : Consistent hasher s)
  (listed : id ∈ scheduled.numScheduledTokens.keys)

include consistent listed

theorem updateFromOutput_unprocessed
    (nothing : s.requests.get? id = none ∨ results.resultsOf id = .ok ([], none)) :
    Gives (fun (outputs, s') => Unprocessed id results s outputs s')
      (s.updateFromOutput encoders connector scheduled results) := by
  unfold updateFromOutput
  refine (UpdateLoop.updateRequests_spare
    scheduled.numScheduledTokens.nodup listed ⟨s, [], [], []⟩ consistent nothing).bind ?_
  rintro loop ⟨⟨silent, requests, blocks⟩, held⟩
  refine ((updateFromKvXferFinished_requests _ _).and
    (updateFromKvXferFinished_keeps hasher id ?_ _ _)).bind ?_
  · exact held.congr rfl rfl rfl
  · rintro s' ⟨fewer, keeps⟩
    refine ⟨fun output member => (silent output member).resolve_left List.not_mem_nil,
      fun after found => ?_, fun notSent => ?_⟩
    · rw [show loop.scheduler.requests.get? id = some after from fewer id after found] at requests
      obtain ⟨before, stored, same⟩ := Option.map_eq_some_iff.mp requests.symm
      exact ⟨before, stored, same.symm⟩
    · have sameStored := congrArg Option.isSome requests
      rw [Option.isSome_map, Option.isSome_map] at sameStored
      exact ⟨(keeps notSent).blocks.trans blocks,
        (congrArg Option.isSome (keeps notSent).requests).trans sameStored⟩

theorem updateFromOutput_reports (stored : s.requests.get? id = some request)
    (something : results.resultsOf id ≠ .ok ([], none)) :
    Gives (fun (outputs, _) => ∃ output ∈ outputs, output.requestId = id)
      (s.updateFromOutput encoders connector scheduled results) := by
  unfold updateFromOutput
  refine (UpdateLoop.updateRequests_report
    scheduled.numScheduledTokens.nodup listed ⟨s, [], [], []⟩ consistent stored
    something).bind ?_
  rintro loop ⟨reports, -⟩
  exact Meets.any.bind fun _ _ => reports

end

/-- After an abort, the output of the step that was being executed leaves the request alone exactly
if the abort has deleted the request or the step has no results for it. -/
theorem aborted_unprocessed_iff [DecidableEq H] (collisionFree : ∀ h ∈ hasher, h.CollisionFree)
    {config : SchedulerConfig} {kvConfig : KVCacheConfig} {encoder : E}
    {ops : List (Option (KVConnector H) × SchedulerOp)} {s s₁ s₂ : Scheduler H E}
    (run : Trace (ConnectorStep encoders) (init config hasher kvConfig encoder) ops s)
    {connector connector' : Option (KVConnector H)} {request : Request H}
    (stored : s.requests.get? id = some request) (unfinished : request.isFinished = false)
    {ids : List Nat} (aborted : id ∈ ids) {finishedStatus : RequestStatus}
    (aborts : s.finishRequests encoders connector ids finishedStatus = .ok s₁)
    {scheduled : SchedulerOutput} (listed : id ∈ scheduled.numScheduledTokens.keys)
    {results : ModelRunnerOutput} {outputs : List EngineCoreOutput}
    (updates : s₁.updateFromOutput encoders connector' scheduled results =
      .ok (outputs, s₂)) :
    Unprocessed id results s₁ outputs s₂ ↔
      dropsRequest connector (request.withStatus finishedStatus) (s.kv.getBlocks id) = true ∨
        results.resultsOf id = .ok ([], none) := by
  have consistent := consistent_of_trace collisionFree run
  obtain rfl := (consistent.stored id request stored).1
  obtain ⟨fate, held⟩ :=
    (finishRequests_fate consistent stored unfinished
      aborted).ok aborts
  constructor
  · intro unprocessed
    by_contra neither
    obtain ⟨kept, something⟩ := not_or.mp neither
    have stays := fate.kept (Bool.eq_false_of_not_eq_true kept)
    obtain ⟨output, member, isOutput⟩ :=
      (updateFromOutput_reports held listed stays something).ok updates
    exact unprocessed.silent output member isOutput
  · intro nothing
    exact (updateFromOutput_unprocessed held listed (nothing.imp_left fate.dropped)).ok updates

/-- The request is scheduled, aborted while the step is executed, and then the output of the step
is processed. -/
def abortDuringStep (request : EngineCoreRequest) : Except EngineError
    (SchedulerOutput × List EngineCoreOutput ×
      Scheduler ContentHash Unit ×
      Scheduler ContentHash Unit ×
      Scheduler ContentHash Unit) := do
  let s ← (smallScheduler smallKVCacheConfig).exec noEncoder (.add request)
  let (output, s) ← s.schedule noEncoder none
  let s₁ ← s.finishRequests noEncoder none [request.requestId] .finishedAborted
  let (outputs, s₂) ← s₁.updateFromOutput noEncoder none output (oneTokenEach [request.requestId])
  return (output, outputs, s, s₁, s₂)

theorem abortDuringStep_steps {request : EngineCoreRequest} {output : SchedulerOutput}
    {outputs : List EngineCoreOutput}
    {s s₁ s₂ : Scheduler ContentHash Unit}
    (returns : abortDuringStep request = .ok (output, outputs, s, s₁, s₂)) :
    ∃ s₀, ConnectorStep noEncoder (smallScheduler smallKVCacheConfig) (none, .add request) s₀ ∧
      s₀.schedule noEncoder none = .ok (output, s) ∧
      s.finishRequests noEncoder none [request.requestId] .finishedAborted = .ok s₁ ∧
      s₁.updateFromOutput noEncoder none output (oneTokenEach [request.requestId]) =
        .ok (outputs, s₂) := by
  obtain ⟨s₀, adds, returns⟩ := bind_eq_ok.mp returns
  obtain ⟨⟨output₁, s'⟩, schedules, returns⟩ := bind_eq_ok.mp returns
  obtain ⟨s₁', aborts, returns⟩ := bind_eq_ok.mp returns
  obtain ⟨⟨outputs₁, s₂'⟩, updates, returns⟩ := bind_eq_ok.mp returns
  cases returns
  exact ⟨s₀, adds, schedules, aborts, updates⟩

/-- An aborted pinned request gets the token of the step, another status and an output. -/
theorem aborted_pinned_processed :
    ∃ s₀ output s s₁ outputs s₂,
      Trace (ConnectorStep noEncoder) (smallScheduler smallKVCacheConfig)
        [(none, .add pinnedCoreRequest)] s₀ ∧
      s₀.schedule noEncoder none = .ok (output, s) ∧ 7 ∈ output.numScheduledTokens.keys ∧
      s.finishRequests noEncoder none [7] .finishedAborted = .ok s₁ ∧
      s₁.updateFromOutput noEncoder none output (oneTokenEach [7]) = .ok (outputs, s₂) ∧
      (s₁.requests.get? 7).map Request.visible = some (.finishedAborted, [1, 2, 3, 4], []) ∧
      (s₂.requests.get? 7).map Request.visible =
        some (.finishedLengthCapped, [1, 2, 3, 4, 9], [9]) ∧
      ∃ output ∈ outputs, output.requestId = 7 := by
  have runs : ∃ result, abortDuringStep pinnedCoreRequest = .ok result ∧
      7 ∈ result.1.numScheduledTokens.keys ∧
      (result.2.2.2.1.requests.get? 7).map Request.visible =
        some (.finishedAborted, [1, 2, 3, 4], []) ∧
      (result.2.2.2.2.requests.get? 7).map Request.visible =
        some (.finishedLengthCapped, [1, 2, 3, 4, 9], [9]) ∧
      ∃ output ∈ result.2.1, output.requestId = 7 := by
    decide +kernel
  obtain ⟨⟨output, outputs, s, s₁, s₂⟩, runs, listed, before, after, reports⟩ := runs
  obtain ⟨s₀, adds, schedules, aborts, updates⟩ := abortDuringStep_steps runs
  exact ⟨s₀, output, s, s₁, outputs, s₂, .cons adds (.nil s₀), schedules, listed, aborts, updates,
    before, after, reports⟩

def unpinnedCoreRequest : EngineCoreRequest :=
  { pinnedCoreRequest with samplingParams := some { maxTokens := 1 } }

theorem aborted_unpinned_unprocessed :
    ∃ ops s request s₁ output outputs s₂,
      Trace (ConnectorStep noEncoder) (smallScheduler smallKVCacheConfig) ops s ∧
      s.requests.get? 7 = some request ∧ request.isFinished = false ∧
      s.finishRequests noEncoder none [7] .finishedAborted = .ok s₁ ∧
      7 ∈ output.numScheduledTokens.keys ∧
      s₁.updateFromOutput noEncoder none output (oneTokenEach [7]) = .ok (outputs, s₂) ∧
      Unprocessed 7 (oneTokenEach [7]) s₁ outputs s₂ := by
  have free := contentHasher_free 2
  have runs : ∃ result, abortDuringStep unpinnedCoreRequest = .ok result ∧
      7 ∈ result.1.numScheduledTokens.keys ∧
      ∃ request, result.2.2.1.requests.get? 7 = some request ∧ request.isFinished = false ∧
        dropsRequest none (request.withStatus .finishedAborted) (result.2.2.1.kv.getBlocks 7) =
          true := by
    decide +kernel
  obtain ⟨⟨output, outputs, s, s₁, s₂⟩, runs, listed, request, stored, unfinished, drops⟩ := runs
  obtain ⟨s₀, adds, schedules, aborts, updates⟩ := abortDuringStep_steps runs
  have scheduled : ConnectorStep noEncoder s₀ (none, .schedule) s :=
    bind_eq_ok.mpr ⟨(output, s), schedules, rfl⟩
  have run : Trace (ConnectorStep noEncoder) (smallScheduler smallKVCacheConfig)
      [(none, .add unpinnedCoreRequest), (none, .schedule)] s :=
    .cons adds (.cons scheduled (.nil s))
  exact ⟨_, s, request, s₁, output, outputs, s₂, run, stored, unfinished, aborts, listed, updates,
    (aborted_unprocessed_iff free run stored unfinished List.mem_cons_self aborts listed
      updates).mpr
      (Or.inl drops)⟩

end Scheduler

end Kalypso.Engine
