import Kalypso.Engine.SchedulerMoves

/-!
# The output of a step as a sequence of moves

Without a KV connector, `update_from_output`, `finish_requests`, `add_request` and
`unpin_request` are sequences of moves as well.  A request that has stopped leaves its queue at
the end of the call only; in the model of the moves it leaves when it stops.
-/

set_option autoImplicit false

namespace Kalypso.Engine

open Kalypso.Lib

/-- The labels of the moves that the results of the requests `ids` make. -/
def LifecycleOp.IsResultOf {H : Type} (ids : List Nat) : LifecycleOp H → Prop
  | .progress _ => True
  | .finish request => request.requestId ∈ ids
  | .add _ | .allocate _ | .preempt _ | .pin _ | .unpin _ => False

/-! ## The results of one request -/

structure Request.Later {H : Type} (hasher : Option (BlockHasher H)) (old request : Request H) :
    Prop where
  sameId : request.requestId = old.requestId
  pinned : request.pinned = old.pinned
  hashed : old.Hashed hasher → request.Hashed hasher

structure Request.Results {H : Type} (hasher : Option (BlockHasher H)) (old : Request H)
    (stopped : Bool) (request : Request H) : Prop where
  later : old.Later hasher request
  finishes : stopped = true → request.isFinished = true
  keeps : stopped = false → request.status = old.status

namespace Request

variable {H : Type} {hasher : Option (BlockHasher H)} {old request request' : Request H}
  {stopped : Bool}

theorem Later.refl (request : Request H) : request.Later hasher request := ⟨rfl, rfl, id⟩

theorem Later.trans (first : old.Later hasher request) (second : request.Later hasher request') :
    old.Later hasher request' :=
  ⟨second.sameId.trans first.sameId, second.pinned.trans first.pinned, second.hashed ∘ first.hashed⟩

theorem Results.unchanged (request : Request H) : request.Results hasher false request :=
  ⟨.refl request, nofun, fun _ => rfl⟩

theorem Results.of_later (results : request.Results hasher stopped request')
    (later : old.Later hasher request) (sameStatus : request.status = old.status) :
    old.Results hasher stopped request' :=
  ⟨later.trans results.later, results.finishes,
    fun goesOn => (results.keeps goesOn).trans sameStatus⟩

variable (hasher) in
theorem checkStop_meets (maxModelLen : Nat) (request : Request H) :
    Gives (fun (stopped, updated) => request.Results hasher stopped updated)
      (request.checkStop maxModelLen) := by
  have finished : ∀ updated : Request H, updated.requestId = request.requestId →
      updated.pinned = request.pinned → updated.blockHashes = request.blockHashes →
      updated.isFinished = true → request.Results hasher true updated :=
    fun updated sameId pinned hashes isFinished =>
      ⟨⟨sameId, pinned, fun hashed => hashed.of_blockHashes hashes⟩, fun _ => isFinished, nofun⟩
  unfold checkStop
  split
  · exact trivial
  · exact trivial
  · split
    · exact Results.unchanged request
    · split
      · exact trivial
      · split
        · exact finished _ rfl rfl rfl rfl
        · split
          · exact finished _ rfl rfl rfl rfl
          · split
            · exact finished _ rfl rfl rfl rfl
            · exact Results.unchanged request

variable (hasher) in
theorem appendOutputTokenId_later (token : Nat) (request : Request H) :
    request.Later hasher (request.appendOutputTokenId hasher token) ∧
      (request.appendOutputTokenId hasher token).status = request.status := by
  have hashed : request.Hashed hasher →
      (request.appendOutputTokenId hasher token).Hashed hasher := fun hashed =>
    Hashed.hashNewFullBlocks (hashed.of_blockHashes rfl)
  cases hasher with
  | none | some hasher => exact ⟨⟨rfl, rfl, hashed⟩, rfl⟩

end Request

namespace Scheduler

variable {H E : Type} {hasher : Option (BlockHasher H)}

theorem updateRequestWithOutput_meets (maxModelLen : Nat) (tokens : List Nat) :
    ∀ request : Request H, Gives
      (fun (_, stopped, updated) => request.Results hasher stopped updated)
      (updateRequestWithOutput hasher maxModelLen tokens request) := by
  induction tokens with
  | nil => exact fun request => .unchanged request
  | cons token rest ih =>
    intro request
    obtain ⟨later, sameStatus⟩ := request.appendOutputTokenId_later hasher token
    rw [updateRequestWithOutput]
    refine (Request.checkStop_meets hasher maxModelLen _).bind ?_
    rintro ⟨stopped, updated⟩ results
    dsimp only
    split
    · rename_i isStopped
      subst isStopped
      exact results.of_later later sameStatus
    · rename_i goesOn
      have here := results.of_later later sameStatus
      refine (ih updated).bind ?_
      rintro ⟨tokens, stopped', last⟩ more
      exact more.of_later here.later (here.keeps (Bool.eq_false_of_not_eq_true goesOn))

variable (hasher) in
theorem rejectDrafts_later (scheduledSpecTokenIds : List Nat) (numGenerated : Nat)
    (request : Request H) :
    request.Later hasher (rejectDrafts scheduledSpecTokenIds numGenerated request) ∧
      (rejectDrafts scheduledSpecTokenIds numGenerated request).status = request.status := by
  unfold rejectDrafts
  split
  · exact ⟨.refl request, rfl⟩
  · exact ⟨⟨rfl, rfl, fun hashed => hashed.of_blockHashes rfl⟩, rfl⟩

/-! ## Freeing a finished request -/

structure Freed (request : Request H) (s s' : Scheduler H E) : Prop where
  static : Static s s'
  waiting : s'.waiting = s.waiting
  running : s'.running = s.running
  kept : request.pinned = true → s'.kv = s.kv ∧ s'.requests = s.requests
  freed : request.pinned = false → s.kv.free request.requestId = .ok s'.kv ∧
    s'.requests = s.requests.erase request.requestId

theorem freeBlocks_meets (request : Request H) (s : Scheduler H E) :
    Gives
      (fun s' => ∃ kv, s.kv.free request.requestId = .ok kv ∧
        s' = { s with kv := kv, requests := s.requests.erase request.requestId })
      (s.freeBlocks request) := by
  unfold freeBlocks
  split
  · exact trivial
  · cases frees : s.kv.free request.requestId with
    | error e => exact trivial
    | ok kv =>
      change Meets _ _ (ite _ _ _)
      split
      · exact trivial
      · exact ⟨kv, rfl, rfl⟩

theorem freeRequest_freed {encoders : EncoderCacheManager H E} (request : Request H)
    (s : Scheduler H E) :
    Gives (fun (_, s') => Freed request s s')
      (s.freeRequest encoders none request) := by
  unfold freeRequest
  split
  · exact trivial
  · refine Meets.bind (P := fun answer => answer = (false, none)) rfl ?_
    rintro _ rfl
    dsimp only
    split
    · rename_i frees
      have unpinned : request.pinned = false := beq_iff_eq.mp frees
      refine (freeBlocks_meets request _).bind ?_
      rintro s' ⟨kv, freed, rfl⟩
      refine ⟨⟨rfl, rfl⟩, rfl, rfl, fun isPinned => ?_, fun _ => ⟨freed, rfl⟩⟩
      cases unpinned.symm.trans isPinned
    · rename_i keeps
      refine ⟨⟨rfl, rfl⟩, rfl, rfl, fun _ => ⟨rfl, rfl⟩, fun unpinned => ?_⟩
      exact absurd (beq_iff_eq.mpr unpinned) keeps

variable [DecidableEq H] {s s' : Scheduler H E} {old request : Request H}

theorem Freed.step (freed : Freed request (s.store request) s')
    (stored : s.requests.get? old.requestId = some old) (unfinished : old.isFinished = false)
    (hashed : old.Hashed hasher) (later : old.Later hasher request)
    (finished : request.isFinished = true) :
    s.queues.life.Step hasher (.finish request) s'.queues.life := by
  rw [← later.sameId] at stored
  have updates : s.queues.life.Updates hasher old request :=
    ⟨stored, later.pinned, later.hashed hashed⟩
  cases isPinned : request.pinned with
  | true =>
    obtain ⟨kv, requests⟩ := freed.kept isPinned
    unfold queues
    rw [kv, requests]
    exact .finishPinned updates unfinished finished isPinned
  | false =>
    obtain ⟨frees, requests⟩ := freed.freed isPinned
    unfold queues
    rw [requests, store, Dict.erase_set]
    exact .finish updates unfinished finished isPinned frees

/-- A stored request stops, possibly one that had already finished.  It leaves its queue. -/
theorem Freed.run {waiting running : Multiset Nat} {ids : List Nat}
    (freed : Freed request (s.store request) s')
    (inv : Queues.Inv hasher ⟨⟨s.kv, s.requests⟩, waiting, running⟩)
    (stored : s.requests.get? old.requestId = some old) (later : old.Later hasher request)
    (finished : request.isFinished = true) (listed : old.requestId ∈ ids) :
    Queues.Run hasher (LifecycleOp.IsResultOf ids) ⟨⟨s.kv, s.requests⟩, waiting, running⟩
      ⟨⟨s'.kv, s'.requests⟩, waiting.erase old.requestId, running.erase old.requestId⟩ := by
  have hashed := (inv.life.stored _ _ stored).2
  cases wasFinished : old.isFinished with
  | false =>
    have step := freed.step stored wasFinished hashed later finished
    rw [← later.sameId] at listed ⊢
    exact .single (.finish step) listed
  | true =>
    have pinned : request.pinned = true :=
      later.pinned.trans (inv.life.retained _ _ stored wasFinished)
    obtain ⟨kv, requests⟩ := freed.kept pinned
    have notWaiting : old.requestId ∉ waiting := fun member => by
      have isWaiting := (inv.mem_waiting stored).mp member
      cases wasFinished.symm.trans
        ((RequestStatus.isFinished_eq_false_iff _).mpr (Or.inl isWaiting))
    have notRunning : old.requestId ∉ running := fun member => by
      have isRunning := (inv.mem_running stored).mp member
      cases wasFinished.symm.trans
        ((RequestStatus.isFinished_eq_false_iff _).mpr (Or.inr isRunning))
    rw [kv, requests, Multiset.erase_of_notMem notWaiting, Multiset.erase_of_notMem notRunning]
    rw [← later.sameId] at stored
    exact .single (.of_update stored later.pinned (later.hashed hashed)
      (.of_finished wasFinished finished)) trivial

end Scheduler

namespace UpdateLoop

variable {H E : Type} {hasher : Option (BlockHasher H)} {loop loop' loop'' : UpdateLoop H E}
  {ids : List Nat}

def queues (loop : UpdateLoop H E) : Queues H :=
  ⟨⟨loop.scheduler.kv, loop.scheduler.requests⟩,
    (loop.scheduler.waiting.filter fun id => !loop.stoppedPreemptedReqs.contains id : List Nat),
    (loop.scheduler.running.filter fun id => !loop.stoppedRunningReqs.contains id : List Nat)⟩

theorem coe_filter_insert {queue stopped : List Nat} {id : Nat}
    (nodup : (queue.filter fun other => !stopped.contains other).Nodup) :
    ((queue.filter fun other => !(stopped.insert id).contains other : List Nat) : Multiset Nat) =
      ((queue.filter fun other => !stopped.contains other : List Nat) : Multiset Nat).erase id := by
  rw [Multiset.coe_erase, nodup.erase_eq_filter, List.filter_filter]
  refine congrArg _ (List.filter_congr fun other _ => ?_)
  by_cases same : other = id
  · simp [same]
  · simp [same, bne_iff_ne.mpr same]

theorem processResults_meets (maxModelLen : Nat) (generated : List Nat) (pooled : Option Nat)
    (request : Request H) :
    Gives (fun (_, stopped, updated) => request.Results hasher stopped updated)
      (processResults hasher maxModelLen generated pooled request) := by
  unfold processResults
  split
  · exact Scheduler.updateRequestWithOutput_meets maxModelLen generated request
  · split
    · exact ⟨⟨rfl, rfl, fun hashed => hashed.of_blockHashes rfl⟩, fun _ => rfl, nofun⟩
    · exact .unchanged request

theorem updateRequestWithOutput_reports (hasher : Option (BlockHasher H)) (maxModelLen token : Nat)
    (rest : List Nat) (request : Request H) :
    Gives (fun result => result.1 ≠ [])
      (Scheduler.updateRequestWithOutput hasher maxModelLen (token :: rest) request) := by
  rw [Scheduler.updateRequestWithOutput]
  refine Meets.any.bind ?_
  rintro ⟨stopped, updated⟩ -
  dsimp only
  split
  · exact List.cons_ne_nil _ _
  · refine Meets.any.bind ?_
    rintro ⟨tokens, last⟩ -
    exact List.cons_ne_nil _ _

theorem processResults_reports (maxModelLen : Nat) (generated : List Nat) (pooled : Option Nat)
    (request : Request H) :
    Gives (fun result => result.1 = [] → generated = [])
      (processResults hasher maxModelLen generated pooled request) := by
  cases generated with
  | nil => exact Meets.any.mono fun _ _ _ => rfl
  | cons token rest =>
    exact (updateRequestWithOutput_reports hasher maxModelLen token rest request).mono
      fun _ reports nothing => absurd nothing reports

theorem emit_meets (request : Request H) (newTokenIds : List Nat)
    (pooled kvTransferParams : Option Nat)
    (hasPromptLogprobs : Bool) (loop : UpdateLoop H E) :
    Gives
      (fun loop' => ∃ more, loop' = { loop with outputs := loop.outputs ++ more } ∧
        (∀ output ∈ more, output.requestId = request.requestId) ∧
        (more = [] ↔ newTokenIds = [] ∧ pooled = none ∧ kvTransferParams = none))
      (loop.emit request newTokenIds pooled kvTransferParams hasPromptLogprobs) := by
  unfold emit
  split
  · rename_i reports
    refine ⟨_, rfl, fun output member => ?_, ?_⟩
    · rw [List.mem_singleton.mp member]
    · simp only [List.cons_ne_self, false_iff]
      rintro ⟨rfl, rfl, rfl⟩
      cases reports
  · rename_i silent
    split
    · exact trivial
    · refine ⟨[], by simp, fun _ member => absurd member List.not_mem_nil, ?_⟩
      simpa [and_assoc] using silent

/-- The results of a request are stored, `stopRequest` runs, and outputs of the request are added:
at least one unless there are no results. -/
theorem updateRequest_meets {encoders : EncoderCacheManager H E}
    {connector : Option (KVConnector H)} {scheduled : SchedulerOutput} {results : ModelRunnerOutput}
    {entry : Nat × Int} {Q : UpdateLoop H E → Prop} (isHasher : loop.scheduler.hasher = hasher)
    (absent : loop.scheduler.requests.get? entry.1 = none → Q loop)
    (present : ∀ request stopped updated, loop.scheduler.requests.get? entry.1 = some request →
      request.Results hasher stopped updated →
      Gives
        (fun result => ∀ more, (∀ output ∈ more, output.requestId = updated.requestId) →
          (more = [] → results.resultsOf entry.1 = .ok ([], none)) →
            Q { result.2 with outputs := result.2.outputs ++ more })
        ({ loop with scheduler := loop.scheduler.store updated }.stopRequest encoders
          connector request.status stopped updated)) :
    Gives Q (loop.updateRequest encoders connector scheduled results entry) := by
  unfold updateRequest
  split
  · exact trivial
  · split
    · rename_i notStored
      exact absent notStored
    · rename_i request stored
      cases reported : results.resultsOf entry.1 with
      | error e => exact trivial
      | ok result =>
        obtain ⟨generated, pooled⟩ := result
        obtain ⟨rejected, sameStatus⟩ := Scheduler.rejectDrafts_later hasher
          (scheduled.scheduledSpecDecodeTokens.getD entry.1 []) generated.length request
        rw [isHasher]
        refine ((processResults_meets _ generated pooled _).and
          (processResults_reports _ generated pooled _)).bind ?_
        rintro ⟨newTokenIds, stopped, updated⟩ ⟨result, reports⟩
        refine (present request stopped updated stored (result.of_later rejected sameStatus)).bind
          ?_
        rintro ⟨params, loop₁⟩ holds
        refine (emit_meets updated newTokenIds pooled params _ loop₁).mono ?_
        rintro loop' ⟨more, rfl, ofRequest, isSilent⟩
        refine holds more ofRequest fun nothing => ?_
        obtain ⟨noTokens, noPooled, -⟩ := isSilent.mp nothing
        rw [reported, reports noTokens, noPooled]

variable [DecidableEq H] {encoders : EncoderCacheManager H E} {old request : Request H}

structure Moves (hasher : Option (BlockHasher H)) (ids : List Nat) (loop loop' : UpdateLoop H E) :
    Prop where
  run : Queues.Run hasher (LifecycleOp.IsResultOf ids) loop.queues loop'.queues
  static : Scheduler.Static loop.scheduler loop'.scheduler
  waiting : loop'.scheduler.waiting = loop.scheduler.waiting
  running : loop'.scheduler.running = loop.scheduler.running

theorem Moves.refl (loop : UpdateLoop H E) : Moves hasher ids loop loop :=
  ⟨.refl _, .refl _, rfl, rfl⟩

theorem Moves.trans (first : Moves hasher ids loop loop') (second : Moves hasher ids loop' loop'') :
    Moves hasher ids loop loop'' :=
  ⟨first.run.trans second.run, first.static.trans second.static,
    second.waiting.trans first.waiting, second.running.trans first.running⟩

/-- A request that has stopped leaves the queue that its status named. -/
theorem stopRequest_moves (inv : loop.queues.Inv hasher)
    (stored : loop.scheduler.requests.get? old.requestId = some old)
    (later : old.Later hasher request) (finished : request.isFinished = true)
    (listed : old.requestId ∈ ids) :
    Gives (fun (_, loop') => Moves hasher ids loop loop')
      ({ loop with scheduler := loop.scheduler.store request }.stopRequest encoders none
        old.status true request) := by
  have nodup := Multiset.nodup_add.mp inv.nodup
  unfold stopRequest
  rw [if_neg nofun]
  refine (Scheduler.freeRequest_freed request _).bind ?_
  rintro ⟨params, s⟩ freed
  have run : Queues.Run hasher (LifecycleOp.IsResultOf ids) loop.queues
      ⟨⟨s.kv, s.requests⟩, loop.queues.waiting.erase old.requestId,
        loop.queues.running.erase old.requestId⟩ :=
    Scheduler.Freed.run freed inv stored later finished listed
  have moves : ∀ loop' : UpdateLoop H E, loop'.scheduler = s →
      loop'.queues.waiting = loop.queues.waiting.erase old.requestId →
      loop'.queues.running = loop.queues.running.erase old.requestId →
        Moves hasher ids loop loop' := by
    rintro loop' rfl waiting running
    rw [← waiting, ← running] at run
    exact ⟨run, ⟨freed.static.config, freed.static.hasher⟩, freed.waiting, freed.running⟩
  dsimp only
  split
  · rename_i isRunning
    have notWaiting : old.requestId ∉ loop.queues.waiting := fun member => by
      have isWaiting := (inv.mem_waiting stored).mp member
      rw [isRunning] at isWaiting
      cases isWaiting
    refine moves _ rfl ?_ ?_
    · simp only [queues, freed.waiting]
      exact (Multiset.erase_of_notMem notWaiting).symm
    · simp only [queues, freed.running, later.sameId]
      exact coe_filter_insert nodup.2.1
  · rename_i notRunning
    have notListed : old.requestId ∉ loop.queues.running := fun member =>
      notRunning ((inv.mem_running stored).mp member)
    refine moves _ rfl ?_ ?_
    · simp only [queues, freed.waiting, later.sameId]
      exact coe_filter_insert nodup.1
    · simp only [queues, freed.running]
      exact (Multiset.erase_of_notMem notListed).symm

theorem updateRequest_moves (inv : loop.queues.Inv hasher)
    (isHasher : loop.scheduler.hasher = hasher)
    (scheduled : SchedulerOutput) (results : ModelRunnerOutput) (entry : Nat × Int)
    (listed : entry.1 ∈ ids) :
    Gives (fun loop' => Moves hasher ids loop loop')
      (loop.updateRequest encoders none scheduled results entry) := by
  refine updateRequest_meets isHasher (fun _ => Moves.refl loop) ?_
  intro request stopped updated stored result
  obtain ⟨isId, hashed⟩ := inv.life.stored _ _ stored
  rw [← isId] at stored listed
  have stops : Gives (fun result => Moves hasher ids loop result.2)
      ({ loop with scheduler := loop.scheduler.store updated }.stopRequest encoders
        none request.status stopped updated) := by
    cases stopped with
    | true =>
      exact stopRequest_moves inv stored result.later (result.finishes rfl) listed
    | false =>
      rw [← result.later.sameId] at stored
      refine ⟨.single (.of_update stored result.later.pinned (result.later.hashed hashed) ?_)
        trivial, ⟨rfl, rfl⟩, rfl, rfl⟩
      rw [result.keeps rfl]
      exact .refl _
  exact stops.mono fun _ ⟨run, static, waiting, running⟩ _ _ _ => ⟨run, static, waiting, running⟩

end UpdateLoop

theorem removeAll_eq_filter {queue : List Nat} (nodup : queue.Nodup) (items : List Nat) :
    removeAll queue items = queue.filter fun id => !items.contains id := by
  unfold removeAll
  split
  · simp
  · rename_i item
    rw [nodup.erase_eq_filter]
    refine List.filter_congr fun other _ => ?_
    by_cases same : other = item
    · simp [same]
    · simp [same, bne_iff_ne.mpr same]
  · rfl

def ModelRunnerOutput.NoTransfers (results : ModelRunnerOutput) : Prop :=
  results.finishedRecving = [] ∧ results.finishedSending = []

namespace Scheduler

variable {H E : Type} [DecidableEq H] {hasher : Option (BlockHasher H)} {s s' : Scheduler H E}
  (free : ∀ h ∈ hasher, h.CollisionFree) {encoders : EncoderCacheManager H E}

include free in
theorem updateFromOutput_moves (inv : s.queues.Inv hasher) (isHasher : s.hasher = hasher)
    (scheduled : SchedulerOutput) (results : ModelRunnerOutput)
    (noTransfers : results.NoTransfers) :
    Gives
      (fun (_, s') =>
        MovesTo hasher (LifecycleOp.IsResultOf scheduled.numScheduledTokens.keys) s s')
      (s.updateFromOutput encoders none scheduled results) := by
  have start : (⟨s, [], [], []⟩ : UpdateLoop H E).queues = s.queues := by
    simp [UpdateLoop.queues, queues]
  have nodup : s.running.Nodup := (Multiset.nodup_add.mp inv.nodup).2.1
  unfold updateFromOutput
  refine Meets.bind (Meets.foldlM (P := UpdateLoop.Moves hasher scheduled.numScheduledTokens.keys
    ⟨s, [], [], []⟩) _ _ (fun entry listed loop moves => ?_) (.refl _)) fun loop moves => ?_
  · refine (UpdateLoop.updateRequest_moves (moves.run.inv free (start ▸ inv))
      (moves.static.hasher.trans isHasher) scheduled results entry ?_).mono
      fun _ rest => moves.trans rest
    exact List.mem_map.mpr ⟨entry, listed, rfl⟩
  · have removed := removeAll_eq_filter (moves.running ▸ nodup) loop.stoppedRunningReqs
    have run := moves.run
    rw [start] at run
    rw [noTransfers.1, noTransfers.2, removed]
    exact ⟨run, ⟨moves.static.config, moves.static.hasher⟩⟩

/-! ## Finishing from outside -/

section

omit [DecidableEq H]

/-- The ids that leave the running list, and those that leave the waiting queue. -/
theorem mem_validRequests {ids : List Nat} {request : Request H} :
    request ∈ s.validRequests ids ↔
      ∃ id ∈ ids, s.requests.get? id = some request ∧ request.isFinished = false := by
  simp only [validRequests, List.mem_filterMap, List.mem_dedup, Option.filter_eq_some_iff,
    Bool.not_eq_true']

theorem nodup_validRequests
    (ownId : ∀ id request, s.requests.get? id = some request → request.requestId = id)
    (ids : List Nat) : ((s.validRequests ids).map (·.requestId)).Nodup := by
  rw [validRequests, List.map_filterMap]
  refine List.Nodup.filterMap (fun id id' found isFound isFound' => ?_) (List.nodup_dedup ids)
  simp only [Option.mem_def, Option.map_eq_some_iff, Option.filter_eq_some_iff] at isFound isFound'
  obtain ⟨request, ⟨stored, -⟩, rfl⟩ := isFound
  obtain ⟨request', ⟨stored', -⟩, sameId⟩ := isFound'
  have isId := ownId _ _ stored
  have isId' := ownId _ _ stored'
  exact isId.symm.trans (sameId.symm.trans isId')

theorem coe_eq_filter_add {queue ids : List Nat} (nodup : queue.Nodup) (nodupIds : ids.Nodup)
    (listed : ∀ id ∈ ids, id ∈ queue) :
    (queue : Multiset Nat) = ((queue.filter fun id => !ids.contains id : List Nat) : Multiset Nat) +
      ids := by
  have apart : List.Disjoint (queue.filter fun id => !ids.contains id) ids := by
    intro id outside inside
    have absent := (List.mem_filter.mp outside).2
    rw [List.contains_iff_mem.mpr inside] at absent
    cases absent
  rw [Multiset.coe_add, Multiset.coe_eq_coe,
    List.perm_ext_iff_of_nodup nodup ((nodup.filter _).append nodupIds apart)]
  intro id
  rw [List.mem_append, List.mem_filter]
  by_cases inside : id ∈ ids
  · simp [inside, listed id inside]
  · simp [inside]

/-- The queues before the requests `valid`, which are to be finished, were taken out. -/
def queuesBefore (valid : List (Request H)) (s : Scheduler H E) : Queues H :=
  ⟨⟨s.kv, s.requests⟩, s.waiting + waitingIds valid, s.running + runningIds valid⟩

theorem queuesBefore_cons {request : Request H} {rest : List (Request H)}
    (inv : (s.queuesBefore (request :: rest)).Inv hasher)
    (stored : s.requests.get? request.requestId = some request) :
    (s.queuesBefore (request :: rest)).waiting.erase request.requestId =
        (s.queuesBefore rest).waiting ∧
      (s.queuesBefore (request :: rest)).running.erase request.requestId =
        (s.queuesBefore rest).running := by
  by_cases isRunning : request.status = .running
  · have notWaiting : request.requestId ∉ (s.queuesBefore (request :: rest)).waiting :=
      fun member => by
      have isWaiting := (inv.mem_waiting stored).mp member
      rw [isRunning] at isWaiting
      cases isWaiting
    refine ⟨(Multiset.erase_of_notMem notWaiting).trans ?_, ?_⟩
    · simp [queuesBefore, waitingIds, runningIds, isRunning]
    · simp [queuesBefore, waitingIds, runningIds, isRunning, ← Multiset.cons_coe, Multiset.add_cons]
  · have notRunning : request.requestId ∉ (s.queuesBefore (request :: rest)).running :=
      fun member =>
      isRunning ((inv.mem_running stored).mp member)
    refine ⟨?_, (Multiset.erase_of_notMem notRunning).trans ?_⟩
    · simp [queuesBefore, waitingIds, runningIds, isRunning, ← Multiset.cons_coe, Multiset.add_cons]
    · simp [queuesBefore, waitingIds, runningIds, isRunning]

theorem Freed.requests_of_ne {request : Request H} (freed : Freed request s s') {other : Nat}
    (different : other ≠ request.requestId) : s'.requests.get? other = s.requests.get? other := by
  cases isPinned : request.pinned with
  | true => rw [(freed.kept isPinned).2]
  | false => rw [(freed.freed isPinned).2, Dict.get?_erase_of_ne _ different]

end

theorem finishRequest_moves {ids : List Nat} {finishedStatus : RequestStatus}
    (isFinished : finishedStatus.isFinished = true) {request : Request H} {rest : List (Request H)}
    (inv : (s.queuesBefore (request :: rest)).Inv hasher)
    (stored : s.requests.get? request.requestId = some request) (listed : request.requestId ∈ ids) :
    Gives
      (fun s' => Queues.Run hasher (LifecycleOp.IsResultOf ids) (s.queuesBefore (request :: rest))
          (s'.queuesBefore rest) ∧ Static s s' ∧
        ∀ other, other ≠ request.requestId → s'.requests.get? other = s.requests.get? other)
      (s.finishRequest encoders none finishedStatus request) := by
  unfold finishRequest
  refine (freeRequest_freed _ _).bind ?_
  rintro ⟨params, s'⟩ ⟨static, waiting, running, kept, freed⟩
  have frees : Freed { request with status := finishedStatus }
      (s.store { request with status := finishedStatus }) s' :=
    ⟨static, waiting, running, kept, freed⟩
  obtain ⟨sameWaiting, sameRunning⟩ := queuesBefore_cons inv stored
  have run : Queues.Run hasher (LifecycleOp.IsResultOf ids) (s.queuesBefore (request :: rest))
      ⟨⟨s'.kv, s'.requests⟩, (s.queuesBefore (request :: rest)).waiting.erase request.requestId,
        (s.queuesBefore (request :: rest)).running.erase request.requestId⟩ :=
    frees.run inv stored ⟨rfl, rfl, fun hashed => hashed.of_blockHashes rfl⟩ isFinished listed
  have after : s'.queuesBefore rest = ⟨⟨s'.kv, s'.requests⟩, (s.queuesBefore rest).waiting,
      (s.queuesBefore rest).running⟩ := by
    unfold queuesBefore
    rw [waiting, running]
    rfl
  refine ⟨?_, ⟨static.config, static.hasher⟩, fun other different => ?_⟩
  · rw [sameWaiting, sameRunning, ← after] at run
    exact run
  · rw [frees.requests_of_ne different]
    exact Dict.get?_set_of_ne _ _ different

include free in
theorem finishValid_moves (ids : List Nat) {finishedStatus : RequestStatus}
    (isFinished : finishedStatus.isFinished = true) (valid : List (Request H)) :
    ∀ {s : Scheduler H E}, (s.queuesBefore valid).Inv hasher →
      (valid.map (·.requestId)).Nodup →
      (∀ request ∈ valid, s.requests.get? request.requestId = some request ∧
        request.requestId ∈ ids) →
        Gives
          (fun s' => Queues.Run hasher (LifecycleOp.IsResultOf ids)
            (s.queuesBefore valid) s'.queues ∧
            Static s s')
          (valid.foldlM (finishRequest encoders none finishedStatus) s) := by
  induction valid with
  | nil =>
    intro s _ _ _
    have same : s.queuesBefore [] =
        s.queues := by simp [queuesBefore, waitingIds, runningIds, queues]
    rw [same]
    exact ⟨.refl _, .refl s⟩
  | cons request rest ih =>
    intro s inv nodup listed
    obtain ⟨stored, inIds⟩ := listed request List.mem_cons_self
    obtain ⟨notLater, nodupRest⟩ := List.nodup_cons.mp nodup
    rw [List.foldlM_cons]
    refine (finishRequest_moves isFinished inv stored inIds).bind ?_
    rintro s' ⟨run, static, others⟩
    refine (ih (run.inv free inv) nodupRest fun later member => ?_).mono fun s'' moves =>
      ⟨run.trans moves.1, static.trans moves.2⟩
    obtain ⟨storedLater, laterInIds⟩ := listed later (List.mem_cons_of_mem _ member)
    have different : later.requestId ≠ request.requestId := fun same =>
      notLater (List.mem_map.mpr ⟨later, member, same⟩)
    exact ⟨(others _ different).trans storedLater, laterInIds⟩

include free in
theorem finishRequests_moves (inv : s.queues.Inv hasher) (ids : List Nat)
    (finishedStatus : RequestStatus) :
    Gives (fun s' => MovesTo hasher (LifecycleOp.IsResultOf ids) s s')
      (s.finishRequests encoders none ids finishedStatus) := by
  unfold finishRequests
  split
  · exact trivial
  · rename_i notUnfinished
    have isFinished : finishedStatus.isFinished = true := by
      simpa only [Bool.not_eq_true', Bool.not_eq_false] using notUnfinished
    obtain ⟨nodupWaiting, nodupRunning, -⟩ := Multiset.nodup_add.mp inv.nodup
    have nodup := nodup_validRequests
      (fun id request stored => (inv.life.stored id request stored).1) ids
    have valid : ∀ request ∈ s.validRequests ids,
        s.requests.get? request.requestId = some request ∧ request.requestId ∈ ids ∧
          request.isFinished = false := by
      intro request member
      obtain ⟨id, inIds, stored, unfinished⟩ := mem_validRequests.mp member
      obtain rfl : request.requestId = id := (inv.life.stored _ _ stored).1
      exact ⟨stored, inIds, unfinished⟩
    have sublist : ∀ p : Request H → Bool,
        (((s.validRequests ids).filter p).map (·.requestId)).Nodup := fun p =>
      nodup.sublist (List.filter_sublist.map _)
    have inWaiting : ∀ id ∈ waitingIds (s.validRequests ids), id ∈ s.waiting := by
      intro id member
      obtain ⟨request, filtered, rfl⟩ := List.mem_map.mp member
      obtain ⟨isValid, notRunning⟩ := List.mem_filter.mp filtered
      obtain ⟨stored, -, unfinished⟩ := valid request isValid
      exact (inv.listed _ _ stored unfinished).resolve_right fun isListed =>
        of_decide_eq_true notRunning ((inv.mem_running stored).mp isListed)
    have inRunning : ∀ id ∈ runningIds (s.validRequests ids), id ∈ s.running := by
      intro id member
      obtain ⟨request, filtered, rfl⟩ := List.mem_map.mp member
      obtain ⟨isValid, isRunning⟩ := List.mem_filter.mp filtered
      exact (inv.mem_running (valid request isValid).1).mpr (of_decide_eq_true isRunning)
    have before : queuesBefore (s.validRequests ids) { s with
        running := removeAll s.running (runningIds (s.validRequests ids))
        waiting := s.waiting.filter fun id => !(waitingIds (s.validRequests ids)).contains id } =
          s.queues := by
      have waits := coe_eq_filter_add nodupWaiting
        (show (waitingIds (s.validRequests ids)).Nodup from sublist _) inWaiting
      have runs := coe_eq_filter_add nodupRunning
        (show (runningIds (s.validRequests ids)).Nodup from sublist _) inRunning
      unfold queues
      rw [removeAll_eq_filter nodupRunning, waits, runs]
      rfl
    refine (finishValid_moves free ids isFinished (s.validRequests ids)
      (before.symm ▸ inv) nodup fun request member => ?_).mono fun s' moves => ?_
    · exact ⟨(valid request member).1, (valid request member).2.1⟩
    · rw [before] at moves
      exact ⟨moves.1, ⟨moves.2.config, moves.2.hasher⟩⟩

/-! ## Adding and unpinning -/

omit [DecidableEq H] in
theorem coe_enqueue (id : Nat) (s : Scheduler H E) :
    ((s.enqueue id).waiting : Multiset Nat) = id ::ₘ (s.waiting : Multiset Nat) := by
  refine Multiset.coe_eq_coe.mpr ?_
  unfold enqueue
  dsimp only
  split
  · exact List.perm_append_singleton _ _
  · exact insertBy_perm _ _ _

/-- A new request, whose id is not that of a request that is not finished. -/
theorem addRequest_move {request : Request H} (hashed : request.Hashed hasher)
    (isWaiting : request.status.isWaiting = true)
    (isNew : ∀ old, s.requests.get? request.requestId = some old → old.isFinished = true) :
    Queues.Move hasher s.queues (.add request) (s.addRequest request).queues := by
  have unfinished : request.isFinished = false :=
    (RequestStatus.isFinished_eq_false_iff _).mpr (Or.inl isWaiting)
  unfold queues addRequest
  rw [coe_enqueue]
  exact .add (.add hashed unfinished isNew) isWaiting

theorem unpinRequest_move (id : Nat) :
    Gives
      (fun s' => Queues.Move hasher s.queues (.unpin id) s'.queues ∧ Static s s')
      (s.unpinRequest id) := by
  unfold unpinRequest
  cases unpins : s.kv.unpinRequest id with
  | error e => exact trivial
  | ok kv => exact ⟨.unpin (.unpin unpins), ⟨rfl, rfl⟩⟩

end Scheduler

end Kalypso.Engine
