import Kalypso.Engine.Continuation

/-!
# The registry of pinned requests

The engine keeps the blocks of every finished request that was pinned.  The query executor learns
the id of such a request from the response and records it; the cleanup after a query, the monitor
for a stuck scheduler and the endpoint for unpinning only know recorded ids.
-/

set_option autoImplicit false

namespace Kalypso.Query

open Kalypso.Lib Kalypso.Engine

/-! ## The registry -/

inductive CallKind where
  | chat
  | completion
deriving DecidableEq

structure PinnedEntry where
  requestId : Nat
  kind : CallKind
  maxTokens : Nat
  ownerKey : Nat
  pinnedAt : Nat

structure PinnedRequestRegistry where
  entries : Dict Nat PinnedEntry
  ownId : ∀ id entry, entries.get? id = some entry → entry.requestId = id

namespace PinnedRequestRegistry

variable {registry : PinnedRequestRegistry} {id : Nat}

def empty : PinnedRequestRegistry := ⟨.empty, fun _ _ found => (nomatch found)⟩

def add (entry : PinnedEntry) (registry : PinnedRequestRegistry) : PinnedRequestRegistry where
  entries := registry.entries.set entry.requestId entry
  ownId := Dict.forall_set rfl registry.ownId

def remove (requestId : Nat) (registry : PinnedRequestRegistry) : PinnedRequestRegistry where
  entries := registry.entries.erase requestId
  ownId := fun id other found => registry.ownId id other (Dict.get?_of_erase found)

def list (registry : PinnedRequestRegistry) : List PinnedEntry :=
  registry.entries.values.mergeSort fun a b => a.pinnedAt ≤ b.pinnedAt

def listByOwner (ownerKey : Nat) (registry : PinnedRequestRegistry) : List PinnedEntry :=
  (registry.entries.values.filter fun entry => entry.ownerKey == ownerKey).mergeSort
    fun a b => a.pinnedAt ≤ b.pinnedAt

theorem mem_values_iff (entry : PinnedEntry) :
    entry ∈ registry.entries.values ↔ registry.entries.get? entry.requestId = some entry := by
  constructor
  · intro member
    obtain ⟨⟨id, other⟩, inEntries, rfl⟩ := List.mem_map.mp member
    have found := (Dict.get?_eq_some_iff _ _ _).mpr inEntries
    rw [registry.ownId id other found]
    exact found
  · intro found
    exact List.mem_map.mpr ⟨_, (Dict.get?_eq_some_iff _ _ _).mp found, rfl⟩

theorem mem_list_iff (entry : PinnedEntry) :
    entry ∈ registry.list ↔ registry.entries.get? entry.requestId = some entry := by
  rw [list, List.mem_mergeSort, mem_values_iff]

theorem mem_listByOwner_iff (ownerKey : Nat) (entry : PinnedEntry) :
    entry ∈ registry.listByOwner ownerKey ↔
      registry.entries.get? entry.requestId = some entry ∧ entry.ownerKey = ownerKey := by
  rw [listByOwner, List.mem_mergeSort, List.mem_filter, mem_values_iff, beq_iff_eq]

end PinnedRequestRegistry

/-- Who unpins: the cleanup after a query, the monitor, or the endpoint with or without ids. -/
inductive Release where
  | query (ownerKey : Nat)
  | all
  | requested (ids : List Nat)

def Release.ids (registry : PinnedRequestRegistry) : Release → List Nat
  | .query ownerKey => (registry.listByOwner ownerKey).map (·.requestId)
  | .all => registry.list.map (·.requestId)
  | .requested ids => ids.filter fun id => (registry.list.map (·.requestId)).contains id

theorem Release.registered {registry : PinnedRequestRegistry} {release : Release} {id : Nat}
    (member : id ∈ release.ids registry) : ∃ entry, registry.entries.get? id = some entry := by
  have ofList : id ∈ registry.list.map (·.requestId) →
      ∃ entry, registry.entries.get? id = some entry := by
    intro inList
    obtain ⟨entry, isEntry, rfl⟩ := List.mem_map.mp inList
    exact ⟨entry, (PinnedRequestRegistry.mem_list_iff entry).mp isEntry⟩
  cases release with
  | query ownerKey =>
    obtain ⟨entry, isEntry, rfl⟩ := List.mem_map.mp member
    exact ⟨entry, ((PinnedRequestRegistry.mem_listByOwner_iff ownerKey entry).mp isEntry).1⟩
  | all => exact ofList member
  | requested ids => exact ofList (List.contains_iff_mem.mp (List.mem_filter.mp member).2)

theorem Release.mem_ids {registry : PinnedRequestRegistry} {id : Nat} {entry : PinnedEntry}
    (found : registry.entries.get? id = some entry) :
    id ∈ (Release.query entry.ownerKey).ids registry ∧ id ∈ Release.all.ids registry ∧
      id ∈ (Release.requested [id]).ids registry := by
  obtain rfl := registry.ownId id entry found
  have inList : entry.requestId ∈ registry.list.map (·.requestId) :=
    List.mem_map_of_mem ((PinnedRequestRegistry.mem_list_iff entry).mpr found)
  refine ⟨?_, inList, ?_⟩
  · exact List.mem_map_of_mem
      ((PinnedRequestRegistry.mem_listByOwner_iff entry.ownerKey entry).mpr ⟨found, rfl⟩)
  · exact List.mem_filter.mpr ⟨List.mem_cons_self, List.contains_iff_mem.mpr inList⟩

/-! ## Calls -/

structure Call where
  /-- the id of the response -/
  responseId : Nat
  kind : CallKind
  ownerKey : Nat
  maxTokens : Nat
  pin : Bool
  /-- the response has been delivered -/
  answered : Bool
deriving DecidableEq

def Call.engineId (itemId : Nat → Nat) (call : Call) : Nat :=
  match call.kind with
  | .chat => call.responseId
  | .completion => itemId call.responseId

structure Call.Records (call : Call) (id : Nat) : Prop where
  pin : call.pin = true
  chat : call.kind = .chat
  isId : call.responseId = id

theorem Call.Records.engineId {itemId : Nat → Nat} {call : Call} {id : Nat}
    (records : call.Records id) :
    call.engineId itemId = id := by
  rw [Call.engineId, records.chat]
  exact records.isId

structure PinState (H E : Type) where
  engine : Scheduler H E
  registry : PinnedRequestRegistry
  calls : List Call
  /-- the ids of the pinned results that the operators have got -/
  results : List Nat
  /-- the ids that the engine has unpinned and that are still to be removed from the registry -/
  releasing : List Nat

inductive PinOp where
  | submit (call : Call) (request : EngineCoreRequest)
  | engine (op : SchedulerOp)
  /-- the response of a finished request arrives -/
  | deliver (call : Call)
  /-- the response is decoded, and recorded if the request was pinned -/
  | handle (call : Call) (now : Nat)
  /-- the call ends without a result: it is cancelled, or the response is an error -/
  | lose (call : Call)
  /-- `VLLMExecutor.unpin` for a result -/
  | unpin (id : Nat)
  | release (release : Release)
  | remove (id : Nat)

namespace PinState

variable {H E : Type} [DecidableEq H]

def init (config : SchedulerConfig) (hasher : Option (BlockHasher H)) (kvConfig : KVCacheConfig)
    (encoder : E) : PinState H E :=
  ⟨.init config hasher kvConfig encoder, .empty, [], [], []⟩

structure Fresh (itemId : Nat → Nat) (s : PinState H E) (id : Nat) : Prop where
  absent : s.engine.requests.get? id = none
  noCall : ∀ call ∈ s.calls, call.engineId itemId ≠ id
  noResult : id ∉ s.results

def handled (call : Call) (now : Nat) (s : PinState H E) : PinState H E :=
  let s := { s with calls := s.calls.erase call }
  if call.pin then { s with
    registry := s.registry.add ⟨call.responseId, call.kind, call.maxTokens, call.ownerKey, now⟩
    results := call.responseId :: s.results }
  else s

/-- The steps of the query executor and of the engine.  Request ids are unique. -/
inductive Step (itemId : Nat → Nat) (encoders : EncoderCacheManager H E) :
    PinState H E → PinOp → PinState H E → Prop
  | submit {s : PinState H E} {call : Call} {request : EngineCoreRequest} {engine : Scheduler H E} :
      request.requestId = call.engineId itemId →
      request.samplingParams.any (·.pinned) = call.pin → call.answered = false →
      s.Fresh itemId request.requestId →
      s.engine.exec encoders (.add request) = .ok engine →
      Step itemId encoders s (.submit call request)
        { s with engine := engine, calls := call :: s.calls }
  | engine {s : PinState H E} {op : SchedulerOp} {engine : Scheduler H E} : op.IsInternal →
      Scheduler.Step encoders s.engine op engine →
      Step itemId encoders s (.engine op) { s with engine := engine }
  | deliver {s : PinState H E} {call : Call} : call ∈ s.calls →
      (∀ request, s.engine.requests.get? (call.engineId itemId) = some request →
        request.isFinished = true) →
      Step itemId encoders s (.deliver call)
        { s with calls := { call with answered := true } :: s.calls.erase call }
  | handle {s : PinState H E} {call : Call} {now : Nat} : call ∈ s.calls → call.answered = true →
      Step itemId encoders s (.handle call now) (s.handled call now)
  | lose {s : PinState H E} {call : Call} : call ∈ s.calls →
      Step itemId encoders s (.lose call) { s with calls := s.calls.erase call }
  | unpin {s : PinState H E} {id : Nat} {engine : Scheduler H E} : id ∈ s.results →
      s.engine.unpinRequest id = .ok engine →
      Step itemId encoders s (.unpin id)
        { s with engine := engine, releasing := id :: s.releasing }
  | release {s : PinState H E} {release : Release} {engine : Scheduler H E} :
      s.engine.unpinRequests (release.ids s.registry) = .ok engine →
      Step itemId encoders s (.release release)
        { s with engine := engine, releasing := release.ids s.registry ++ s.releasing }
  | remove {s : PinState H E} {id : Nat} : id ∈ s.releasing →
      Step itemId encoders s (.remove id)
        { s with registry := s.registry.remove id, releasing := s.releasing.erase id }

/-- Pinned calls are chat calls, and a pinned call that ends without a result leaves no blocks. -/
def LosesNoPin (itemId : Nat → Nat) (s : PinState H E) : PinOp → Prop
  | .submit call _ => call.pin = true → call.kind = .chat
  | .lose call => call.pin = true →
      ∀ request, s.engine.requests.get? (call.engineId itemId) = some request →
        request.isFinished = true ∧ (s.engine.kv.getBlocks (call.engineId itemId)).flatten = []
  | _ => True

def RecordingStep (itemId : Nat → Nat) (encoders : EncoderCacheManager H E)
    (s : PinState H E) (op : PinOp) (s' : PinState H E) : Prop :=
  Step itemId encoders s op s' ∧ s.LosesNoPin itemId op

/-! ## Reachability of the pins -/

variable {itemId : Nat → Nat} {encoders : EncoderCacheManager H E}
  {hasher : Option (BlockHasher H)} {s s' : PinState H E}

structure Inv (itemId : Nat → Nat) (hasher : Option (BlockHasher H)) (s : PinState H E) : Prop where
  sound : s.engine.Sound hasher
  /-- a pinned request that is not finished has a call that waits for it -/
  live : ∀ id request, s.engine.requests.get? id = some request → request.pinned = true →
    request.isFinished = false → ∃ call ∈ s.calls, call.Records id ∧ call.answered = false
  /-- a finished one with blocks is recorded, or will be -/
  kept : ∀ id request, s.engine.requests.get? id = some request → request.pinned = true →
    request.isFinished = true → (s.engine.kv.getBlocks id).flatten ≠ [] →
      (∃ entry, s.registry.entries.get? id = some entry) ∨ ∃ call ∈ s.calls, call.Records id
  chats : ∀ call ∈ s.calls, call.pin = true → call.kind = .chat
  answered : ∀ call ∈ s.calls, call.answered = true →
    ∀ request, s.engine.requests.get? (call.engineId itemId) = some request →
      request.isFinished = true
  results : ∀ id ∈ s.results, ∀ request, s.engine.requests.get? id = some request →
    request.isFinished = true
  registered : ∀ id entry, s.registry.entries.get? id = some entry → id ∈ s.results
  releasing : ∀ id ∈ s.releasing, id ∈ s.results ∧ (s.engine.kv.getBlocks id).flatten = []

omit [DecidableEq H] in
theorem inv_init (config : SchedulerConfig) (hasher : Option (BlockHasher H))
    (kvConfig : KVCacheConfig) (encoder : E) :
    (init config hasher kvConfig encoder).Inv itemId hasher :=
  ⟨⟨rfl, Scheduler.inv_init config hasher kvConfig encoder⟩, fun _ _ found => (nomatch found),
    fun _ _ found => (nomatch found), fun _ member => absurd member List.not_mem_nil,
    fun _ member => absurd member List.not_mem_nil, fun _ member => absurd member List.not_mem_nil,
    fun _ _ found => (nomatch found), fun _ member => absurd member List.not_mem_nil⟩

omit [DecidableEq H] in
theorem fromEngineCoreRequest_pinned (hasher : Option (BlockHasher H))
    (request : EngineCoreRequest) :
    Gives (fun added => added.pinned = request.samplingParams.any (·.pinned))
      (Request.fromEngineCoreRequest hasher request) := by
  unfold Request.fromEngineCoreRequest
  split
  · exact trivial
  · cases hasher with
    | none => rfl
    | some hasher => rfl

section

variable (free : ∀ h ∈ hasher, h.CollisionFree)

include free in
theorem Inv.engine (inv : s.Inv itemId hasher) {op : SchedulerOp} {engine : Scheduler H E}
    (internal : op.IsInternal) (step : Scheduler.Step encoders s.engine op engine) :
    { s with engine := engine }.Inv itemId hasher := by
  have later := step.continues free inv.sound internal
  refine ⟨inv.sound.step free step, ?_, ?_, inv.chats, ?_, ?_, inv.registered, ?_⟩
  · intro id request stored pinned unfinished
    obtain ⟨old, isOld, samePin⟩ := later.stored id request stored
    cases finished : old.isFinished with
    | false => exact inv.live id old isOld (samePin.trans pinned) finished
    | true =>
      have stays := (later.settled id fun other isOther => by
        cases isOld.symm.trans isOther
        exact finished).2 request stored
      cases unfinished.symm.trans stays
  · intro id request stored pinned _ holds
    obtain ⟨old, isOld, samePin⟩ := later.stored id request stored
    cases finished : old.isFinished with
    | false =>
      obtain ⟨call, member, records, -⟩ := inv.live id old isOld (samePin.trans pinned) finished
      exact Or.inr ⟨call, member, records⟩
    | true =>
      have blocks := (later.settled id fun other isOther => by
        cases isOld.symm.trans isOther
        exact finished).1
      refine inv.kept id old isOld (samePin.trans pinned) finished ?_
      rw [← show engine.kv.getBlocks id = s.engine.kv.getBlocks id from blocks]
      exact holds
  · exact fun call member isAnswered => (later.settled _ (inv.answered call member isAnswered)).2
  · exact fun id member => (later.settled id (inv.results id member)).2
  · intro id member
    obtain ⟨isResult, empty⟩ := inv.releasing id member
    have blocks : engine.kv.getBlocks id = s.engine.kv.getBlocks id :=
      (later.settled id (inv.results id isResult)).1
    exact ⟨isResult, (congrArg List.flatten blocks).trans empty⟩

section

omit [DecidableEq H]

section

variable (inv : s.Inv itemId hasher)

include inv

theorem Inv.unpins {ids : List Nat} {engine : Scheduler H E} (sound : engine.Sound hasher)
    (unpins : Scheduler.Unpins ids s.engine engine) (known : ∀ id ∈ ids, id ∈ s.results) :
    { s with engine := engine, releasing := ids ++ s.releasing }.Inv itemId hasher := by
  refine ⟨sound, ?_, ?_, inv.chats, ?_, ?_, inv.registered, ?_⟩
  · rw [unpins.requests]
    exact inv.live
  · rw [unpins.requests]
    intro id request stored pinned finished holds
    refine inv.kept id request stored pinned finished ?_
    rcases unpins.others id with same | empty
    · rw [← same]
      exact holds
    · exact absurd empty holds
  · rw [unpins.requests]
    exact inv.answered
  · rw [unpins.requests]
    exact inv.results
  · intro id member
    rcases List.mem_append.mp member with here | before
    · exact ⟨known id here, unpins.emptied id here⟩
    · obtain ⟨isResult, wasEmpty⟩ := inv.releasing id before
      refine ⟨isResult, ?_⟩
      rcases unpins.others id with same | empty
      · exact (congrArg List.flatten same).trans wasEmpty
      · exact empty

theorem Inv.deliver {call : Call} (inFlight : call ∈ s.calls)
    (finished : ∀ request,
      s.engine.requests.get? (call.engineId itemId) = some request → request.isFinished = true) :
    { s with calls := { call with answered := true } :: s.calls.erase call }.Inv itemId hasher := by
  have others : ∀ other ∈ s.calls, other = call ∨ other ∈ s.calls.erase call := by
    intro other member
    by_cases same : other = call
    · exact Or.inl same
    · exact Or.inr ((List.mem_erase_of_ne same).mpr member)
  refine ⟨inv.sound, ?_, ?_, ?_, ?_, inv.results, inv.registered, inv.releasing⟩
  · intro id request stored pinned unfinished
    obtain ⟨other, member, records, waiting⟩ := inv.live id request stored pinned unfinished
    rcases others other member with rfl | stays
    · -- the response of a request that is not finished is not delivered
      rw [← records.engineId] at stored
      cases unfinished.symm.trans (finished request stored)
    · exact ⟨other, List.mem_cons_of_mem _ stays, records, waiting⟩
  · intro id request stored pinned isFinished holds
    rcases inv.kept id request stored pinned isFinished holds with
      recorded | ⟨other, member, records⟩
    · exact Or.inl recorded
    · rcases others other member with rfl | stays
      · exact Or.inr ⟨_, List.mem_cons_self, ⟨records.pin, records.chat, records.isId⟩⟩
      · exact Or.inr ⟨other, List.mem_cons_of_mem _ stays, records⟩
  · intro other member
    rcases List.mem_cons.mp member with rfl | before
    · exact inv.chats call inFlight
    · exact inv.chats other (List.mem_of_mem_erase before)
  · intro other member
    rcases List.mem_cons.mp member with rfl | before
    · exact fun _ => finished
    · exact inv.answered other (List.mem_of_mem_erase before)

theorem Inv.ends {call : Call} {registry : PinnedRequestRegistry} {results : List Nat}
    (notLive : ∀ id request, s.engine.requests.get? id = some request → call.Records id →
      call.answered = true ∨ request.isFinished = true)
    (recorded : ∀ id request, s.engine.requests.get? id = some request → call.Records id →
      (∃ entry, registry.entries.get? id = some entry) ∨ (s.engine.kv.getBlocks id).flatten = [])
    (grows : ∀ id entry, s.registry.entries.get? id = some entry → ∃ entry,
      registry.entries.get? id = some entry)
    (known : ∀ id ∈ s.results, id ∈ results)
    (finished : ∀ id ∈ results, ∀ request,
      s.engine.requests.get? id = some request → request.isFinished = true)
    (registered : ∀ id entry, registry.entries.get? id = some entry → id ∈ results) :
    { s with calls := s.calls.erase call, registry := registry, results := results }.Inv itemId
      hasher := by
  refine ⟨inv.sound, ?_, ?_, ?_, ?_, finished, registered, ?_⟩
  · intro id request stored pinned unfinished
    obtain ⟨other, member, records, waiting⟩ := inv.live id request stored pinned unfinished
    have different : other ≠ call := by
      rintro rfl
      rcases notLive id request stored records with isAnswered | isFinished
      · cases waiting.symm.trans isAnswered
      · cases unfinished.symm.trans isFinished
    exact ⟨other, (List.mem_erase_of_ne different).mpr member, records, waiting⟩
  · intro id request stored pinned isFinished holds
    rcases inv.kept id request stored pinned isFinished holds with ⟨entry, found⟩ |
      ⟨other, member, records⟩
    · exact Or.inl (grows id entry found)
    · by_cases same : other = call
      · subst same
        exact Or.inl ((recorded id request stored records).resolve_right holds)
      · exact Or.inr ⟨other, (List.mem_erase_of_ne same).mpr member, records⟩
  · exact fun other member => inv.chats other (List.mem_of_mem_erase member)
  · exact fun other member => inv.answered other (List.mem_of_mem_erase member)
  · exact fun id member => (inv.releasing id member).imp_left (known id)

theorem Inv.handle {call : Call} (inFlight : call ∈ s.calls) (isAnswered : call.answered = true)
    (now : Nat) : (s.handled call now).Inv itemId hasher := by
  unfold handled
  dsimp only
  split
  · rename_i pin
    have isEngineId : call.engineId itemId = call.responseId := by
      rw [Call.engineId, inv.chats call inFlight pin]
    have found : ∀ id, (s.registry.add ⟨call.responseId, call.kind, call.maxTokens, call.ownerKey,
        now⟩).entries.get? id = if id = call.responseId then
          some ⟨call.responseId, call.kind, call.maxTokens, call.ownerKey, now⟩
        else s.registry.entries.get? id := fun id => Dict.get?_set _ _ _ _
    refine inv.ends (fun _ _ _ _ => Or.inl isAnswered) (fun id request _ records => ?_)
      (fun id entry isEntry => ?_) (fun id member => List.mem_cons_of_mem _ member)
      (fun id member => ?_) (fun id entry isEntry => ?_)
    · refine Or.inl ⟨_, (found id).trans (if_pos records.isId.symm)⟩
    · rw [found]
      split
      · exact ⟨_, rfl⟩
      · exact ⟨entry, isEntry⟩
    · rcases List.mem_cons.mp member with rfl | before
      · rw [← isEngineId]
        exact inv.answered call inFlight isAnswered
      · exact inv.results id before
    · rw [found] at isEntry
      split at isEntry
      · rename_i same
        exact same ▸ List.mem_cons_self
      · exact List.mem_cons_of_mem _ (inv.registered id entry isEntry)
  · rename_i noPin
    exact inv.ends (fun _ _ _ records => absurd records.pin noPin)
      (fun _ _ _ records => absurd records.pin noPin) (fun _ entry isEntry => ⟨entry, isEntry⟩)
      (fun _ member => member) inv.results inv.registered

theorem Inv.lose {call : Call}
    (nothing : call.pin = true → ∀ request,
      s.engine.requests.get? (call.engineId itemId) = some request →
        request.isFinished = true ∧ (s.engine.kv.getBlocks (call.engineId itemId)).flatten = []) :
    { s with calls := s.calls.erase call }.Inv itemId hasher := by
  have lost : ∀ id request, s.engine.requests.get? id = some request → call.Records id →
      request.isFinished = true ∧ (s.engine.kv.getBlocks id).flatten = [] := by
    intro id request stored records
    have isId : call.engineId itemId = id := records.engineId
    rw [← isId] at stored ⊢
    exact nothing records.pin request stored
  exact inv.ends (fun id request stored records => Or.inr (lost id request stored records).1)
    (fun id request stored records => Or.inr (lost id request stored records).2)
    (fun _ entry isEntry => ⟨entry, isEntry⟩) (fun _ member => member) inv.results inv.registered

theorem Inv.remove {id : Nat} (isReleasing : id ∈ s.releasing) :
    { s with registry := s.registry.remove id, releasing := s.releasing.erase id }.Inv itemId
      hasher := by
  have found : ∀ other, (s.registry.remove id).entries.get? other =
      if other = id then none else s.registry.entries.get? other := fun other =>
    Dict.get?_erase _ _ _
  refine ⟨inv.sound, inv.live, ?_, inv.chats, inv.answered, inv.results, ?_,
    fun other member => inv.releasing other (List.mem_of_mem_erase member)⟩
  · intro other request stored pinned finished holds
    refine (inv.kept other request stored pinned finished holds).imp_left ?_
    rintro ⟨entry, isEntry⟩
    have different : other ≠ id := by
      rintro rfl
      exact holds (inv.releasing other isReleasing).2
    exact ⟨entry, (found other).trans ((if_neg different).trans isEntry)⟩
  · intro other entry isEntry
    rw [found] at isEntry
    split at isEntry
    · cases isEntry
    · exact inv.registered other entry isEntry

end

end

include free in
theorem Inv.submit (inv : s.Inv itemId hasher) {call : Call} {request : EngineCoreRequest}
    {engine : Scheduler H E} (isEngineId : request.requestId = call.engineId itemId)
    (samePin : request.samplingParams.any (·.pinned) = call.pin)
    (notAnswered : call.answered = false)
    (fresh : s.Fresh itemId request.requestId)
    (adds : s.engine.exec encoders (.add request) = .ok engine)
    (isChat : call.pin = true → call.kind = .chat) :
    { s with engine := engine, calls := call :: s.calls }.Inv itemId hasher := by
  have step : Scheduler.Step encoders s.engine (.add request) engine :=
    ⟨fun _ found => (nomatch fresh.absent.symm.trans found), adds⟩
  have sound := inv.sound.step free step
  obtain ⟨added, builds, same⟩ := bind_eq_ok.mp adds
  cases same
  obtain ⟨⟨sameId, -, isWaiting⟩, pinned⟩ :=
    ((Scheduler.fromEngineCoreRequest_meets s.engine.hasher request).and
      (fromEngineCoreRequest_pinned s.engine.hasher request)).ok builds
  have unfinished : added.isFinished = false :=
    (RequestStatus.isFinished_eq_false_iff _).mpr (Or.inl isWaiting)
  have found : ∀ id, (s.engine.addRequest added).requests.get? id =
      if id = request.requestId then some added else s.engine.requests.get? id := by
    intro id
    rw [← sameId]
    exact Dict.get?_set _ _ _ _
  have others : ∀ id, id ≠ request.requestId →
      (s.engine.addRequest added).requests.get? id = s.engine.requests.get? id :=
        fun id different =>
    (found id).trans (if_neg different)
  refine ⟨sound, ?_, ?_, ?_, ?_, ?_, inv.registered, inv.releasing⟩
  · intro id other stored isPinned notFinished
    by_cases same : id = request.requestId
    · subst same
      rw [found, if_pos rfl] at stored
      cases stored
      have pin : call.pin = true := samePin.symm.trans (pinned.symm.trans isPinned)
      refine ⟨call, List.mem_cons_self, ⟨pin, isChat pin, ?_⟩, notAnswered⟩
      rw [isEngineId, Call.engineId, isChat pin]
    · obtain ⟨earlier, member, records⟩ :=
        inv.live id other ((others id same).symm.trans stored) isPinned notFinished
      exact ⟨earlier, List.mem_cons_of_mem _ member, records⟩
  · intro id other stored isPinned finished holds
    have different : id ≠ request.requestId := by
      rintro rfl
      rw [found, if_pos rfl] at stored
      cases stored
      cases unfinished.symm.trans finished
    refine (inv.kept id other ((others id different).symm.trans stored) isPinned finished
      holds).imp_right ?_
    rintro ⟨earlier, member, records⟩
    exact ⟨earlier, List.mem_cons_of_mem _ member, records⟩
  · intro other member
    rcases List.mem_cons.mp member with rfl | before
    · exact isChat
    · exact inv.chats other before
  · intro other member isAnswered
    rcases List.mem_cons.mp member with rfl | before
    · cases notAnswered.symm.trans isAnswered
    · rw [others _ (fresh.noCall other before)]
      exact inv.answered other before isAnswered
  · intro id member
    have different : id ≠ request.requestId := fun same => fresh.noResult (same ▸ member)
    rw [others id different]
    exact inv.results id member

include free in
theorem Inv.step (inv : s.Inv itemId hasher) {op : PinOp}
    (step : RecordingStep itemId encoders s op s') : s'.Inv itemId hasher := by
  obtain ⟨step, losesNoPin⟩ := step
  cases step with
  | submit isEngineId samePin notAnswered fresh adds =>
    exact inv.submit free isEngineId samePin notAnswered fresh adds losesNoPin
  | engine internal step => exact inv.engine free internal step
  | deliver inFlight finished => exact inv.deliver inFlight finished
  | handle inFlight isAnswered => exact inv.handle inFlight isAnswered _
  | lose => exact inv.lose losesNoPin
  | @unpin id engine isResult unpins =>
    obtain ⟨engine', returns, effect, sound⟩ := Scheduler.unpinRequest_unpins free inv.sound id
    cases unpins.symm.trans returns
    exact inv.unpins sound effect fun other member => List.mem_singleton.mp member ▸ isResult
  | @release release engine unpins =>
    obtain ⟨engine', returns, effect, sound⟩ :=
      Scheduler.unpinRequests_unpins free (release.ids s.registry) s.engine inv.sound
    cases unpins.symm.trans returns
    refine inv.unpins sound effect fun id member => ?_
    obtain ⟨entry, found⟩ := Release.registered member
    exact inv.registered id entry found
  | remove isReleasing => exact inv.remove isReleasing

include free in
/-- If no pinned call is lost, the blocks of a finished request are recorded or will be, and every
release for the entry gives them back. -/
theorem retained_pin_recorded {config : SchedulerConfig} {kvConfig : KVCacheConfig} {encoder : E}
    {ops : List PinOp}
    (run : Trace (RecordingStep itemId encoders)
      (init config hasher kvConfig encoder) ops s)
    {id : Nat} {request : Request H} (stored : s.engine.requests.get? id = some request)
    (pinned : request.pinned = true) (finished : request.isFinished = true)
    (holds : ∃ b, s.engine.kv.Holds id b) :
    (∃ call ∈ s.calls, call.Records id) ∨
      ∃ entry, s.registry.entries.get? id = some entry ∧
        id ∈ (Release.query entry.ownerKey).ids s.registry ∧ id ∈ Release.all.ids s.registry ∧
        id ∈ (Release.requested [id]).ids s.registry ∧
        ∀ release : Release, id ∈ release.ids s.registry →
          ∃ engine, s.engine.unpinRequests (release.ids s.registry) = .ok engine ∧
            ∀ b, ¬ engine.kv.Holds id b := by
  have inv : s.Inv itemId hasher :=
    run.invariant (fun _ _ _ step held => held.step free step)
      (inv_init config hasher kvConfig encoder)
  have nonempty : (s.engine.kv.getBlocks id).flatten ≠ [] := by
    obtain ⟨b, held⟩ := holds
    exact List.ne_nil_of_mem (KVCacheManager.holds_iff_mem_getBlocks.mp held)
  rcases inv.kept id request stored pinned finished nonempty with ⟨entry, found⟩ | inFlight
  · obtain ⟨byQuery, byMonitor, byRequest⟩ := Release.mem_ids found
    refine Or.inr ⟨entry, found, byQuery, byMonitor, byRequest, fun release member => ?_⟩
    obtain ⟨engine, returns, effect, -⟩ :=
      Scheduler.unpinRequests_unpins free (release.ids s.registry) s.engine inv.sound
    refine ⟨engine, returns, fun b held => ?_⟩
    rw [KVCacheManager.holds_iff_mem_getBlocks, effect.emptied id member] at held
    exact absurd held List.not_mem_nil
  · exact Or.inl inFlight

end

/-! ## Lost pins -/

def pinnedCall : Call where
  responseId := 7
  kind := .chat
  ownerKey := 1
  maxTokens := 1
  pin := true
  answered := false

def idle : PinState ContentHash Unit :=
  init smallSchedulerConfig (some (contentHasher 2)) smallKVCacheConfig ()

theorem idle_fresh (itemId : Nat → Nat) (id : Nat) : idle.Fresh itemId id :=
  ⟨rfl, fun _ member => absurd member List.not_mem_nil, List.not_mem_nil⟩

/-- The client disconnects while its pinned request is running: the request is aborted and the call
is cancelled.  The blocks stay, and nobody knows the id. -/
theorem aborted_pin_unreachable :
    ∃ ops s, Trace (Step (· + 4) noEncoder) idle ops s ∧
      (∃ request, s.engine.requests.get? 7 = some request ∧ request.pinned = true ∧
        request.isFinished = true) ∧ s.engine.kv.Holds 7 1 ∧ s.calls = [] ∧
      s.registry.entries.get? 7 = none ∧ ∀ release : Release, release.ids s.registry = [] := by
  have runs : ∃ result, Scheduler.abortDuringStep pinnedCoreRequest = .ok result ∧
      1 ∈ (result.2.2.2.1.kv.getBlocks 7).flatten ∧
      ∃ request, result.2.2.2.1.requests.get? 7 = some request ∧ request.pinned = true ∧
        request.isFinished = true := by
    decide +kernel
  obtain ⟨⟨output, outputs, s, s₁, s₂⟩, runs, holds, request, stored, flags⟩ := runs
  obtain ⟨s₀, adds, schedules, aborts, -⟩ := Scheduler.abortDuringStep_steps runs
  have submits : Step (· + 4) noEncoder idle (.submit pinnedCall pinnedCoreRequest)
      { idle with engine := s₀, calls := [pinnedCall] } :=
    .submit rfl rfl rfl (idle_fresh _ _) adds
  have run : Trace (Step (· + 4) noEncoder) idle
      [.submit pinnedCall pinnedCoreRequest, .engine .schedule,
        .engine (.finish [7] .finishedAborted), .lose pinnedCall]
      { idle with engine := s₁, calls := [pinnedCall].erase pinnedCall } :=
    .cons submits <| .cons (.engine trivial (.of_schedule schedules)) <|
      .cons (.engine trivial ⟨trivial, aborts⟩) <| .cons (.lose List.mem_cons_self) (.nil _)
  refine ⟨_, _, run, ⟨request, stored, flags⟩,
    KVCacheManager.holds_iff_mem_getBlocks.mpr holds, rfl, rfl, fun release => ?_⟩
  refine List.eq_nil_iff_forall_not_mem.mpr fun id member => ?_
  obtain ⟨entry, found⟩ := Release.registered member
  cases found

/-- The pinned request of the call finishes, its response arrives and is handled. -/
theorem handled_run (itemId : Nat → Nat) (call : Call) (isEngineId : call.engineId itemId = 7)
    (pin : call.pin = true) (waiting : call.answered = false) :
    ∃ output s, Trace (Step itemId noEncoder) idle
        [.submit call pinnedCoreRequest, .engine .schedule,
          .engine (.update output (oneTokenEach [7])), .deliver call,
          .handle { call with answered := true } 0] s ∧
      (∃ request, s.engine.requests.get? 7 = some request ∧ request.pinned = true ∧
        request.isFinished = true) ∧ s.engine.kv.Holds 7 1 ∧ s.calls = [] ∧
      s.registry = PinnedRequestRegistry.empty.add
        ⟨call.responseId, call.kind, call.maxTokens, call.ownerKey, 0⟩ := by
  have runs : ∃ result, Scheduler.finishPinned = .ok result ∧
      1 ∈ (result.2.2.kv.getBlocks 7).flatten ∧
      ∃ request, result.2.2.requests.get? 7 = some request ∧ request.pinned = true ∧
        request.isFinished = true := by
    decide +kernel
  obtain ⟨⟨output, s₁, s₂⟩, runs, holds, request, stored, isPinned, finished⟩ := runs
  obtain ⟨s₀, adds, schedules, updates⟩ := Scheduler.finishPinned_steps runs
  have submits : Step itemId noEncoder idle (.submit call pinnedCoreRequest)
      { idle with engine := s₀, calls := [call] } :=
    .submit isEngineId.symm pin.symm waiting (idle_fresh _ _) adds.2
  have delivers : Step itemId noEncoder { idle with engine := s₂, calls := [call] } (.deliver call)
      { idle with engine := s₂, calls := { call with answered := true } :: [call].erase call } := by
    refine .deliver List.mem_cons_self fun other isOther => ?_
    rw [isEngineId] at isOther
    cases stored.symm.trans isOther
    exact finished
  have handles : Step itemId noEncoder
      { idle with engine := s₂, calls := { call with answered := true } :: [call].erase call }
      (.handle { call with answered := true } 0) _ := .handle List.mem_cons_self rfl
  refine ⟨output, _, .cons submits <| .cons (.engine trivial schedules) <|
    .cons (.engine trivial updates) <| .cons delivers <| .cons handles (.nil _), ?_⟩
  have isHandled : (handled { call with answered := true } 0 { idle with
      engine := s₂, calls := { call with answered := true } :: [call].erase call }) =
      { idle with
        engine := s₂
        registry := PinnedRequestRegistry.empty.add
          ⟨call.responseId, call.kind, call.maxTokens, call.ownerKey, 0⟩
        results := [call.responseId] } := by
    simp [handled, pin, idle, init]
  rw [isHandled]
  exact ⟨⟨request, stored, isPinned, finished⟩, KVCacheManager.holds_iff_mem_getBlocks.mpr holds,
    rfl, rfl⟩

/-- A completion is recorded under the id of the response, which the engine does not know. -/
theorem completion_pin_unreachable :
    ∃ ops s, Trace (Step (· + 4) noEncoder) idle ops s ∧
      (∃ request, s.engine.requests.get? 7 = some request ∧ request.pinned = true ∧
        request.isFinished = true) ∧ s.engine.kv.Holds 7 1 ∧ s.calls = [] ∧
      s.registry.entries.get? 7 = none := by
  obtain ⟨output, s, run, stored, holds, noCalls, registry⟩ :=
    handled_run (· + 4) ⟨3, .completion, 1, 1, true, false⟩ rfl rfl rfl
  refine ⟨_, s, run, stored, holds, noCalls, ?_⟩
  rw [registry]
  rfl

def KeepsPins : PinOp → Prop
  | .submit call _ => call.pin = true → call.kind = .chat
  | .lose _ => False
  | _ => True

theorem recording_of_keepsPins {ops : List PinOp}
    (run : Trace (Step itemId encoders) s ops s')
    (keeps : ∀ op ∈ ops, KeepsPins op) :
    Trace (RecordingStep itemId encoders) s ops s' := by
  refine run.mono_of keeps fun s op s' keeps step => ⟨step, ?_⟩
  cases op with
  | submit call request => exact keeps
  | lose call => exact keeps.elim
  | engine | deliver | handle | unpin | release | remove => exact trivial

theorem retained_pin_recorded_chat :
    ∃ ops s, Trace (RecordingStep (· + 4) noEncoder) idle ops s ∧
      ∃ request, s.engine.requests.get? 7 = some request ∧ request.pinned = true ∧
        request.isFinished = true ∧ (∃ b, s.engine.kv.Holds 7 b) ∧
        ∃ entry, s.registry.entries.get? 7 = some entry ∧
          ∃ engine, s.engine.unpinRequests ((Release.query entry.ownerKey).ids s.registry) =
            .ok engine ∧ ∀ b, ¬ engine.kv.Holds 7 b := by
  have free := contentHasher_free 2
  obtain ⟨output, s, run, ⟨request, stored, pinned, finished⟩, holds, noCalls, -⟩ :=
    handled_run (· + 4) pinnedCall rfl rfl rfl
  have recording := recording_of_keepsPins run (by simp [KeepsPins, pinnedCall])
  have reached := retained_pin_recorded free recording stored pinned finished ⟨1, holds⟩
  rw [noCalls] at reached
  obtain ⟨call, member, -⟩ | ⟨entry, found, byQuery, -, -, released⟩ := reached
  · exact absurd member List.not_mem_nil
  · exact ⟨_, s, recording, request, stored, pinned, finished, ⟨1, holds⟩, entry, found,
      released _ byQuery⟩

end PinState

end Kalypso.Query
