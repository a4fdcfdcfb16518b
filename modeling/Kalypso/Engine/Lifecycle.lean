import Kalypso.Lib.Trace
import Kalypso.Engine.PoolRuns

/-!
# The life of a request

What the engine core does to the requests and to the KV-cache manager, reduced to the steps in
the life of one request: it is added, gets slots, makes progress, is preempted, finishes, and
its blocks are pinned and unpinned.  A request that finishes is dropped together with its
blocks unless it is pinned.
-/

set_option autoImplicit false

namespace Kalypso.Engine

open Kalypso.Lib BlockPool

structure Lifecycle (H : Type) where
  kv : KVCacheManager H
  requests : Dict Nat (Request H)

inductive LifecycleOp (H : Type) where
  | add (request : Request H)
  /-- `allocate_slots` for a running or a waiting request -/
  | allocate (args : KVCacheManager.SlotArgs H)
  /-- the request is `request` from now on -/
  | progress (request : Request H)
  | preempt (requestId : Nat)
  /-- the request is `request` from now on, which is finished -/
  | finish (request : Request H)
  | pin (requestId : Nat)
  | unpin (requestId : Nat)

def LifecycleOp.requestId {H : Type} : LifecycleOp H → Nat
  | .add request | .progress request | .finish request => request.requestId
  | .allocate args => args.request.requestId
  | .preempt requestId | .pin requestId | .unpin requestId => requestId

open KVCacheManager

namespace Lifecycle

variable {H : Type} [DecidableEq H] {hasher : Option (BlockHasher H)} {config : KVCacheConfig}
  {s s' : Lifecycle H} {op : LifecycleOp H}

def init (config : KVCacheConfig) : Lifecycle H := ⟨.init config, .empty⟩

structure Updates (hasher : Option (BlockHasher H)) (s : Lifecycle H) (old request : Request H) :
    Prop where
  stored : s.requests.get? request.requestId = some old
  pinned : request.pinned = old.pinned
  hashed : request.Hashed hasher

/-- The steps.  The front end does not add a request under the id of a request that is not
finished. -/
inductive Step (hasher : Option (BlockHasher H)) : Lifecycle H → LifecycleOp H → Lifecycle H → Prop
  | add {s : Lifecycle H} {request : Request H} : request.Hashed hasher →
      request.isFinished = false →
      (∀ old, s.requests.get? request.requestId = some old → old.isFinished = true) →
      Step hasher s (.add request)
        { s with requests := s.requests.set request.requestId request }
  | allocate {s : Lifecycle H} {args : KVCacheManager.SlotArgs H}
      {newBlocks : Option (List (List Nat))} {kv : KVCacheManager H} :
      s.requests.get? args.request.requestId = some args.request →
      args.request.isFinished = false → args.Issued hasher s.kv →
      s.kv.allocateSlots args = .ok (newBlocks, kv) →
      Step hasher s (.allocate args) { s with kv := kv }
  | progress {s : Lifecycle H} {old request : Request H} : s.Updates hasher old request →
      request.isFinished = old.isFinished →
      Step hasher s (.progress request)
        { s with requests := s.requests.set request.requestId request }
  | preempt {s : Lifecycle H} {request : Request H} {kv : KVCacheManager H} :
      s.requests.get? request.requestId = some request → request.status = .running →
      s.kv.free request.requestId = .ok kv →
      Step hasher s (.preempt request.requestId)
        ⟨kv, s.requests.set request.requestId { request with
          status := .preempted
          numComputedTokens := 0
          numPreemptions := request.numPreemptions + 1 }⟩
  | finishPinned {s : Lifecycle H} {old request : Request H} : s.Updates hasher old request →
      old.isFinished = false → request.isFinished = true → request.pinned = true →
      Step hasher s (.finish request)
        { s with requests := s.requests.set request.requestId request }
  | finish {s : Lifecycle H} {old request : Request H} {kv : KVCacheManager H} :
      s.Updates hasher old request → old.isFinished = false → request.isFinished = true →
      request.pinned = false → s.kv.free request.requestId = .ok kv →
      Step hasher s (.finish request) ⟨kv, s.requests.erase request.requestId⟩
  | pin {s : Lifecycle H} {requestId : Nat} :
      Step hasher s (.pin requestId) { s with kv := s.kv.pinRequest requestId }
  | unpin {s : Lifecycle H} {requestId : Nat} {kv : KVCacheManager H} :
      s.kv.unpinRequest requestId = .ok kv →
      Step hasher s (.unpin requestId) { s with kv := kv }

theorem Step.add_first {request : Request H} (hashed : request.Hashed hasher)
    (unfinished : request.isFinished = false) :
    Step hasher (init config) (.add request)
      ⟨.init config, Dict.empty.set request.requestId request⟩ :=
  .add hashed unfinished fun _ found => (nomatch found)

/-! ## Invariants -/

structure Inv (hasher : Option (BlockHasher H)) (s : Lifecycle H) : Prop where
  ok : s.kv.Ok
  stored : ∀ id request, s.requests.get? id = some request →
    request.requestId = id ∧ request.Hashed hasher
  /-- only stored requests have blocks -/
  known : ∀ id b, s.kv.Holds id b → ∃ request, s.requests.get? id = some request
  /-- a finished request that is still stored is pinned -/
  retained : ∀ id request, s.requests.get? id = some request → request.isFinished = true →
    request.pinned = true

omit [DecidableEq H] in
theorem inv_init (config : KVCacheConfig) (hasher : Option (BlockHasher H)) :
    (init config).Inv hasher :=
  ⟨init_ok config, fun _ _ found => (nomatch found),
    fun id b holds => absurd holds (not_holds_init config id b),
    fun _ _ found => (nomatch found)⟩

def givesBack (s : Lifecycle H) : LifecycleOp H → List Nat
  | .allocate args => s.kv.outOfWindow args.request.requestId args.request.numComputedTokens
  | .preempt requestId | .unpin requestId => (s.kv.getBlocks requestId).flatten
  | .finish request =>
      if request.pinned then [] else (s.kv.getBlocks request.requestId).flatten
  | .add _ | .progress _ | .pin _ => []

variable (free : ∀ h ∈ hasher, h.CollisionFree)

include free in
/-- Every step is an operation of the KV-cache manager on one request. -/
theorem Step.effect (step : Step hasher s op s') (ok : s.kv.Ok) :
    KVCacheManager.Effect op.requestId (s.givesBack op) s.kv s'.kv := by
  cases step with
  | add => exact .refl ok _ _
  | allocate _ _ issued allocated =>
    exact (ok.allocateSlots (issued.valid free)).ok allocated
  | progress => exact .refl ok _ _
  | preempt _ _ freed => exact ((ok.free _).ok freed).1.1
  | finishPinned => exact .refl ok _ _
  | @finish _ request _ _ _ _ unpinned freed =>
    have effect := ((ok.free request.requestId).ok freed).1.1
    rw [givesBack, unpinned]
    exact effect
  | pin => exact ok.pinRequest _
  | unpin unpinned => exact ((ok.unpinRequest _).ok unpinned).1

omit [DecidableEq H] in
theorem Inv.store (inv : s.Inv hasher) (request : Request H) {kv : KVCacheManager H}
    (hashed : request.Hashed hasher) (ok : kv.Ok)
    (frame : ∀ id b, id ≠ request.requestId → kv.Holds id b → s.kv.Holds id b)
    (retained : request.isFinished = true → request.pinned = true) :
    Inv hasher ⟨kv, s.requests.set request.requestId request⟩ := by
  refine ⟨ok, Dict.forall_set ⟨rfl, hashed⟩ inv.stored, fun id b holds => ?_,
    Dict.forall_set retained inv.retained⟩
  rw [Dict.get?_set]
  split
  · exact ⟨request, rfl⟩
  · rename_i different
    exact inv.known id b (frame id b different holds)

include free in
theorem Inv.step (inv : s.Inv hasher) (step : Step hasher s op s') : s'.Inv hasher := by
  have effect := step.effect free inv.ok
  have frame : ∀ id b, id ≠ op.requestId → s'.kv.Holds id b → s.kv.Holds id b :=
    fun id b different => (holds_of_frame different effect.frame).mp
  cases step with
  | add hashed unfinished _ =>
    refine inv.store _ hashed effect.ok frame fun finished => ?_
    cases unfinished.symm.trans finished
  | @allocate args _ _ found _ _ _ =>
    refine ⟨effect.ok, inv.stored, fun id b holds => ?_, inv.retained⟩
    by_cases same : id = args.request.requestId
    · exact ⟨_, same ▸ found⟩
    · exact inv.known id b (frame id b same holds)
  | progress updates sameFinished =>
    refine inv.store _ updates.hashed effect.ok frame fun finished => ?_
    rw [updates.pinned]
    exact inv.retained _ _ updates.stored (sameFinished ▸ finished)
  | @preempt request _ found _ _ =>
    have hashed := (inv.stored _ _ found).2
    exact inv.store { request with
      status := .preempted
      numComputedTokens := 0
      numPreemptions := request.numPreemptions + 1 } hashed effect.ok frame nofun
  | finishPinned updates _ _ pinned =>
    exact inv.store _ updates.hashed effect.ok frame fun _ => pinned
  | @finish _ request _ _ _ _ _ freed =>
    have nothing := ((inv.ok.free request.requestId).ok freed).2
    refine ⟨effect.ok, fun id other found => inv.stored id other (Dict.get?_of_erase found),
      fun id b holds => ?_, fun id other found => inv.retained id other (Dict.get?_of_erase found)⟩
    have different : id ≠ request.requestId := by
      rintro rfl
      exact nothing b holds
    rw [Dict.get?_erase, if_neg different]
    exact inv.known id b (frame id b different holds)
  | pin => exact ⟨effect.ok, inv.stored, inv.known, inv.retained⟩
  | @unpin requestId _ unpinned =>
    have nothing := ((inv.ok.unpinRequest requestId).ok unpinned).2.2
    refine ⟨effect.ok, inv.stored, fun id b holds => ?_, inv.retained⟩
    have different : id ≠ requestId := by
      rintro rfl
      exact nothing b holds
    exact inv.known id b (frame id b different holds)

variable {ops : List (LifecycleOp H)} {id : Nat}

theorem Step.requests_of_ne (step : Step hasher s op s') (different : id ≠ op.requestId) :
    s'.requests.get? id = s.requests.get? id := by
  cases step with
  | add | progress | preempt | finishPinned => exact Dict.get?_set_of_ne _ _ different
  | allocate => rfl
  | finish => exact Dict.get?_erase_of_ne _ different
  | pin => rfl
  | unpin => rfl

/-- While a finished request is neither unpinned nor replaced, it is stored as finished, with the
same pin, and its tables and the hashes of its blocks stay as they are. -/
theorem Step.finished_stays (free : ∀ h ∈ hasher, h.CollisionFree) (step : Step hasher s op s')
    (ok : s.kv.Ok) {old : Request H} (stored : s.requests.get? id = some old)
    (finished : old.isFinished = true) (notUnpinned : op ≠ .unpin id)
    (notReplaced : ∀ request, op = .add request → request.requestId ≠ id) :
    (∃ request, s'.requests.get? id = some request ∧ request.isFinished = true ∧
      request.pinned = old.pinned) ∧
    s'.kv.getBlocks id = s.kv.getBlocks id ∧
    ∀ b key, s.kv.Holds id b → (s.kv.blockPool.blocks b).blockHash = some key →
      (s'.kv.blockPool.blocks b).blockHash = some key := by
  by_cases different : id = op.requestId
  · subst different
    cases step with
    | @add request => exact absurd rfl (notReplaced request rfl)
    | allocate found unfinished =>
      obtain rfl := Option.some.inj (stored.symm.trans found)
      cases unfinished.symm.trans finished
    | @progress before request updates sameFinished =>
      obtain rfl := Option.some.inj (stored.symm.trans updates.stored)
      exact ⟨⟨request, Dict.get?_set_self _ _ _, sameFinished.trans finished, updates.pinned⟩, rfl,
        fun _ _ _ isHashed => isHashed⟩
    | preempt found running =>
      obtain rfl := Option.some.inj (stored.symm.trans found)
      rw [Request.isFinished, running] at finished
      cases finished
    | finishPinned updates unfinished | finish updates unfinished =>
      obtain rfl := Option.some.inj (stored.symm.trans updates.stored)
      cases unfinished.symm.trans finished
    | pin =>
      refine ⟨⟨old, stored, finished, rfl⟩, rfl, fun b key _ isHashed => ?_⟩
      exact (pinRequest_blockHash ok _ b).trans isHashed
    | unpin => exact absurd rfl notUnpinned
  · have effect := step.effect free ok
    refine ⟨⟨old, (step.requests_of_ne different).trans stored, finished, rfl⟩,
      getBlocks_of_frame different effect.frame, fun b key held isHashed => ?_⟩
    exact effect.hashes id b different held key isHashed

/-- A request that is not stored gets neither stored nor blocks unless it is added. -/
theorem Step.absent_stays (free : ∀ h ∈ hasher, h.CollisionFree) (step : Step hasher s op s')
    (ok : s.kv.Ok) (absent : s.requests.get? id = none) (notUnpinned : op ≠ .unpin id)
    (notAdded : ∀ request, op = .add request → request.requestId ≠ id) :
    s'.requests.get? id = none ∧ s'.kv.getBlocks id = s.kv.getBlocks id := by
  by_cases different : id = op.requestId
  · subst different
    cases step with
    | @add request => exact absurd rfl (notAdded request rfl)
    | allocate found | preempt found => cases absent.symm.trans found
    | progress updates | finishPinned updates | finish updates =>
      cases absent.symm.trans updates.stored
    | pin => exact ⟨absent, rfl⟩
    | unpin => exact absurd rfl notUnpinned
  · have effect := step.effect free ok
    exact ⟨(step.requests_of_ne different).trans absent,
      getBlocks_of_frame different effect.frame⟩

/-! ## No leaked block -/

/-- Except for `unpin_request`, which clears the flags first, the step gives back no pinned block
that no other request holds. -/
def GivesBackShared (s : Lifecycle H) : LifecycleOp H → Prop
  | .unpin _ => True
  | op => ∀ b ∈ s.givesBack op, (s.kv.blockPool.blocks b).pinned = true →
      ∃ other, other ≠ op.requestId ∧ s.kv.Holds other b

/-- The steps that give back no pinned block that no other request holds. -/
def SharingStep (hasher : Option (BlockHasher H)) (s : Lifecycle H) (op : LifecycleOp H)
    (s' : Lifecycle H) : Prop :=
  Step hasher s op s' ∧ s.GivesBackShared op

def PinsInUse (s : Lifecycle H) : Prop :=
  ∀ b, (s.kv.blockPool.blocks b).pinned = true → ∃ id, s.kv.Holds id b

include free in
theorem PinsInUse.step (pins : s.PinsInUse) (ok : s.kv.Ok) (step : SharingStep hasher s op s') :
    s'.PinsInUse := by
  obtain ⟨step, shared⟩ := step
  have effect := step.effect free ok
  have ofOther : ∀ {other b : Nat}, other ≠ op.requestId → s.kv.Holds other b →
      ∃ id, s'.kv.Holds id b := fun different holds =>
    ⟨_, (holds_of_frame different effect.frame).mpr holds⟩
  intro b isPinned
  rcases effect.pins b isPinned with wasPinned | holds
  · obtain ⟨id, held⟩ := pins b wasPinned
    by_cases same : id = op.requestId
    · subst same
      rcases effect.retains b held with stays | left
      · exact ⟨_, stays⟩
      · by_cases unpins : ∃ requestId, op = .unpin requestId
        · obtain ⟨requestId, rfl⟩ := unpins
          cases step with
          | unpin unpinned =>
            exact absurd held (((ok.unpinRequest requestId).ok unpinned).2.1 b isPinned).2
        · have backed : ∀ b ∈ s.givesBack op, (s.kv.blockPool.blocks b).pinned = true →
              ∃ other, other ≠ op.requestId ∧ s.kv.Holds other b := by
            cases op with
            | unpin requestId => exact absurd ⟨requestId, rfl⟩ unpins
            | _ => exact shared
          obtain ⟨other, different, holds⟩ := backed b left wasPinned
          exact ofOther different holds
    · exact ofOther same held
  · exact ⟨_, holds⟩

omit [DecidableEq H] in
theorem pinsInUse_init (config : KVCacheConfig) : (init config : Lifecycle H).PinsInUse :=
  fun _ isPinned => (nomatch isPinned)

/-! ### After the last request -/

def Drained (id : Nat) (s : Lifecycle H) : Prop :=
  (∃ request, s.requests.get? id = some request ∧ request.isFinished = true) ∧
    ∀ b, ¬ s.kv.Holds id b

theorem Drained.step (free : ∀ h ∈ hasher, h.CollisionFree) (drained : s.Drained id) (ok : s.kv.Ok)
    (step : Step hasher s op s')
    (notReplaced : ∀ request, op = .add request → request.requestId ≠ id) : s'.Drained id := by
  obtain ⟨⟨old, stored, finished⟩, nothing⟩ := drained
  by_cases unpins : op = .unpin id
  · subst unpins
    cases step with
    | unpin unpinned =>
      exact ⟨⟨old, stored, finished⟩, ((ok.unpinRequest id).ok unpinned).2.2⟩
  · obtain ⟨⟨request, found, stays, -⟩, tables, -⟩ :=
      step.finished_stays free ok stored finished unpins notReplaced
    refine ⟨⟨request, found, stays⟩, fun b holds => nothing b ?_⟩
    rw [holds_iff_mem_getBlocks, tables] at holds
    exact holds_iff_mem_getBlocks.mpr holds

/-- In the run of `ops` the request has been unpinned after it had finished, and no request has
been added under its id since. -/
def UnpinnedInRun (hasher : Option (BlockHasher H)) (config : KVCacheConfig)
    (ops : List (LifecycleOp H)) (s : Lifecycle H) (id : Nat) : Prop :=
  ∃ before after t t', ops = before ++ .unpin id :: after ∧
    Trace (SharingStep hasher) (init config) before t ∧
    (∃ request, t.requests.get? id = some request ∧ request.isFinished = true) ∧
    SharingStep hasher t (.unpin id) t' ∧ Trace (SharingStep hasher) t' after s ∧
    ∀ request, .add request ∈ after → request.requestId ≠ id

include free in
theorem sameConfig_of_trace (start : s.Inv hasher) (run : Trace (Step hasher) s ops s') :
    SameConfig s.kv.blockPool s'.kv.blockPool := by
  have both := run.invariant
    (P := fun s' => s'.Inv hasher ∧ SameConfig s.kv.blockPool s'.kv.blockPool)
    (fun _ _ _ step held =>
      ⟨held.1.step free step, held.2.trans (step.effect free held.1.ok).config⟩) ⟨start, .refl _⟩
  exact both.2

include free in
theorem inv_of_trace (start : s.Inv hasher ∧ s.PinsInUse)
    (run : Trace (SharingStep hasher) s ops s') : s'.Inv hasher ∧ s'.PinsInUse :=
  run.invariant (P := fun s => s.Inv hasher ∧ s.PinsInUse) (fun _ _ _ step held =>
    ⟨held.1.step free step.1, held.2.step free held.1.ok step⟩) start

include free in
theorem UnpinnedInRun.drained (unpinned : UnpinnedInRun hasher config ops s id) : s.Drained id := by
  obtain ⟨before, after, t, t', -, toT, ⟨request, stored, finished⟩, step, toS, notAdded⟩ :=
    unpinned
  have atT := inv_of_trace free ⟨inv_init config hasher, pinsInUse_init config⟩ toT
  have atT' := inv_of_trace free atT (.cons step (.nil t'))
  have drained : t'.Drained id := by
    cases step.1 with
    | unpin released =>
      exact ⟨⟨request, stored, finished⟩, ((atT.1.ok.unpinRequest id).ok released).2.2⟩
  have both := toS.invariant_of
    (P := fun s => (s.Inv hasher ∧ s.PinsInUse) ∧ s.Drained id)
    (A := fun op => ∀ request, op = .add request → request.requestId ≠ id)
    (fun s op s' allowed step held =>
      ⟨⟨held.1.1.step free step.1, held.1.2.step free held.1.1.ok step⟩,
        held.2.step free held.1.1.ok step.1 allowed⟩)
    (fun op member request isAdd => notAdded request (isAdd ▸ member)) ⟨atT', drained⟩
  exact both.2

include free in
/-- If no step gives back a pinned block that no other request holds, then every block is free or
in a table, and once all requests have finished and the pinned ones have been unpinned, every
block is free. -/
theorem no_block_leaked {ops : List (LifecycleOp H)}
    (run : Trace (SharingStep hasher) (init config) ops s) :
    (∀ b, b ≠ nullBlock → b < config.numBlocks →
      b ∈ s.kv.blockPool.freeBlockQueue.blocks ∨ ∃ id, s.kv.Holds id b) ∧
    ((∀ id request, s.requests.get? id = some request →
        UnpinnedInRun hasher config ops s id) →
      ∀ b, b ≠ nullBlock → b < config.numBlocks →
        b ∈ s.kv.blockPool.freeBlockQueue.blocks) := by
  obtain ⟨inv, pins⟩ := inv_of_trace free ⟨inv_init config hasher, pinsInUse_init config⟩ run
  have same := sameConfig_of_trace free (inv_init config hasher)
    (run.mono fun _ _ _ step => step.1)
  have freeOrHeld : ∀ b, b ≠ nullBlock → b < config.numBlocks →
      b ∈ s.kv.blockPool.freeBlockQueue.blocks ∨ ∃ id, s.kv.Holds id b := by
    intro b notNull inRange
    cases isPinned : (s.kv.blockPool.blocks b).pinned with
    | false => exact inv.ok.free_or_held notNull (same.numGpuBlocks ▸ inRange) isPinned
    | true => exact Or.inr (pins b isPinned)
  refine ⟨freeOrHeld, fun unpinned b notNull inRange => ?_⟩
  refine (freeOrHeld b notNull inRange).resolve_right ?_
  rintro ⟨id, held⟩
  obtain ⟨request, stored⟩ := inv.known id b held
  exact ((unpinned id request stored).drained free).2 b held

end Lifecycle

def smallPinnedArgs : KVCacheManager.SlotArgs ContentHash :=
  ⟨smallPinnedRequest, 4, 0, [[]], 0, false, 0⟩

def smallFinishedRequest : Request ContentHash :=
  { smallPinnedRequest with status := .finishedStopped }

/-- The small pinned request is added, gets its slots and finishes; then it is unpinned. -/
theorem no_block_leaked_unpinned :
    ∃ ops s, Trace (Lifecycle.SharingStep (some (contentHasher 2)))
        (Lifecycle.init smallKVCacheConfig) ops s ∧
      (∃ request, s.requests.get? 7 = some request ∧ request.pinned = true) ∧
      ∀ b, b ≠ nullBlock → b < smallKVCacheConfig.numBlocks →
        b ∈ s.kv.blockPool.freeBlockQueue.blocks := by
  have free := contentHasher_free 2
  have hashed : smallPinnedRequest.Hashed (some (contentHasher 2)) :=
    (Request.hashed_init _ _).hashNewFullBlocks
  have runs : ∃ result, (init smallKVCacheConfig).allocateSlots smallPinnedArgs = .ok result ∧
      ∃ kv', result.2.unpinRequest 7 = .ok kv' ∧ True := by
    decide +kernel
  obtain ⟨⟨newBlocks, kv⟩, allocated, kv', unpinned, -⟩ := runs
  have toFinished : Trace (Lifecycle.SharingStep (some (contentHasher 2)))
      (Lifecycle.init smallKVCacheConfig)
      [.add smallPinnedRequest, .allocate smallPinnedArgs, .finish smallFinishedRequest]
      ⟨kv, (Dict.empty.set 7 smallPinnedRequest).set 7 smallFinishedRequest⟩ :=
    .cons ⟨.add_first hashed rfl, nofun⟩ <|
      .cons ⟨.allocate rfl rfl ⟨hashed, Or.inl rfl⟩ allocated, nofun⟩ <|
      .cons ⟨.finishPinned ⟨rfl, rfl, hashed⟩ rfl rfl rfl, nofun⟩ (.nil _)
  have unpins : Lifecycle.SharingStep (some (contentHasher 2))
      ⟨kv, (Dict.empty.set 7 smallPinnedRequest).set 7 smallFinishedRequest⟩ (.unpin 7)
      ⟨kv', (Dict.empty.set 7 smallPinnedRequest).set 7 smallFinishedRequest⟩ :=
    ⟨.unpin unpinned, trivial⟩
  have run := toFinished.append (.cons unpins (.nil _))
  have stored : ((Dict.empty.set 7 smallPinnedRequest).set 7 smallFinishedRequest).get? 7 =
      some smallFinishedRequest := Dict.get?_set_self _ _ _
  have allFree := (Lifecycle.no_block_leaked free run).2
  refine ⟨_, _, run, ⟨smallFinishedRequest, stored, rfl⟩, allFree ?_⟩
  intro id request found
  have isSeven : id = 7 := by
    by_contra different
    rw [Dict.get?_set_of_ne _ _ different, Dict.get?_set_of_ne _ _ different] at found
    cases found
  subst isSeven
  exact ⟨_, [], _, _, rfl, toFinished, ⟨smallFinishedRequest, stored, rfl⟩, unpins, .nil _,
    fun _ added => absurd added List.not_mem_nil⟩

end Kalypso.Engine
