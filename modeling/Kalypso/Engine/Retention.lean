import Kalypso.Engine.CommonPrefix
import Kalypso.Engine.HybridHit

/-!
# Retained prefixes

In a model whose only group is one of full attention, the blocks of a finished request that is
still stored stay in place: whatever happens to other requests, its table does not change, and
its hashed blocks remain referenced, hashed and cached.  A later request with the same prefix
finds them.
-/

set_option autoImplicit false

namespace Kalypso.Engine

open Kalypso.Lib BlockPool

/-! ## Hits of full attention -/

namespace BlockPool

variable {H : Type} {pool : BlockPool H}

/-- With one group, the hit has at least the blocks of a cached prefix, up to the length that is
searched; EAGLE gives the last of them up. -/
theorem fullAttentionHit_length {hashes : List (List H)} {n : Nat} (blockSize maxLength : Nat)
    (useEagle : Bool) (enough : n ≤ hashes.length)
    (cached : ∀ hash ∈ hashes.take n,
      (pool.cachedBlockHashToBlock.getOneBlock ⟨hash, 0⟩).isSome = true) :
    ∃ blocks,
      pool.fullAttentionHit blockSize hashes maxLength [0] useEagle blockSize = [blocks] ∧
        min n (maxLength / blockSize) - (if useEagle then 1 else 0) ≤ blocks.length := by
  have start : List.Forall₂ (pool.TakenFor hashes 0) [0] [[]] :=
    .cons ⟨rfl, hitsAt_nil, fun i _ before => absurd before (Nat.not_lt_zero i)⟩ .nil
  obtain ⟨m, -, taken, -, furthest⟩ := takeCached_longest (hashes.take (maxLength / blockSize))
    List.drop_zero (Nat.zero_le _) start fun i before => absurd before (Nat.not_lt_zero i)
  have atLeast := furthest (min n (maxLength / blockSize)) (Nat.min_le_right _ _) fun i before => by
    have inside : i < hashes.length := by omega
    have atI := List.getElem?_eq_getElem inside
    have inPrefix : hashes[i] ∈ hashes.take n :=
      List.mem_of_getElem? ((List.getElem?_take_of_lt (by omega)).trans atI)
    obtain ⟨b, isCached⟩ := Option.isSome_iff_exists.mp (cached _ inPrefix)
    exact ⟨_, atI, fun groupId only => ⟨b, List.mem_singleton.mp only ▸ isCached⟩⟩
  unfold fullAttentionHit
  generalize isTaken : pool.takeCached [0] (hashes.take (maxLength / blockSize)) [[]] = computed
    at taken
  obtain ⟨blocks, rfl, rfl⟩ : ∃ blocks : List Nat, blocks.length = m ∧ computed = [blocks] := by
    cases taken with
    | cons first none =>
      cases none
      exact ⟨_, first.1, rfl⟩
  have aligned : ∀ k, blockSize ∣ k * blockSize := Nat.dvd_mul_left blockSize
  simp only [List.map_cons, List.map_nil, isTaken, popUnaligned_of_dvd _ (aligned _)]
  cases useEagle with
  | false => exact ⟨blocks, rfl, atLeast⟩
  | true =>
    cases blocks with
    | nil => exact ⟨[], rfl, Nat.sub_le_of_le_add (Nat.le_add_right_of_le atLeast)⟩
    | cons first rest =>
      refine ⟨(first :: rest).dropLast, rfl, ?_⟩
      rw [List.length_dropLast, if_pos rfl]
      exact Nat.sub_le_sub_right atLeast 1

end BlockPool

/-! ## The groups of the configuration -/

open KVCacheManager

namespace KVCacheManager

variable {H : Type} {m m' : KVCacheManager H} {config : KVCacheConfig}

/-- The parameters of the manager and of its groups are those of the configuration. -/
structure Configured (config : KVCacheConfig) (m : KVCacheManager H) : Prop where
  enableCaching : m.enableCaching = config.enableCaching
  useEagle : m.useEagle = config.useEagle
  worldSize : m.worldSize = config.worldSize
  groups : m.singleTypeManagers.map (fun manager =>
      (manager.kvCacheSpec, manager.blockSize, manager.kvCacheGroupId)) =
    config.groups.zipIdx.map fun (spec, i) => (spec, spec.blockSize * config.worldSize, i)

theorem configured_init (config : KVCacheConfig) :
    Configured config (init config : KVCacheManager H) :=
  ⟨rfl, rfl, rfl, by rw [init, List.map_map]; rfl⟩

theorem Configured.effect {requestId : Nat} {released : List Nat} (configured : m.Configured config)
    (effect : Effect requestId released m m') : m'.Configured config :=
  ⟨effect.enableCaching.trans configured.enableCaching,
    effect.useEagle.trans configured.useEagle, effect.worldSize.trans configured.worldSize,
    (map_of_frame (fun _ _ frame => by rw [frame.kvCacheSpec, frame.blockSize,
      frame.kvCacheGroupId])
      effect.frame).trans configured.groups⟩

/-- Where all groups are of full attention, no table has a placeholder. -/
theorem Arranged.not_null {hasher : Option (BlockHasher H)} (arranged : m.Arranged config hasher)
    (allFull : ∀ spec ∈ config.groups, spec.attention = .full) {id b : Nat} (held : m.Holds id b) :
    b ≠ nullBlock := by
  rintro rfl
  obtain ⟨manager, isManager, inTable⟩ := held
  obtain ⟨i, atI⟩ := List.mem_iff_getElem?.mp inTable
  have isFull : manager.kvCacheSpec.attention = .full := by
    refine allFull _ ?_
    rw [← arranged.shaped.specs]
    exact List.mem_map_of_mem isManager
  exact arranged.placed.solid (manager.kvCacheGroupId, i) ⟨manager, isManager, rfl, id, atI⟩
    ((arranged.shaped.kinds isManager).mp isFull)

/-- With one group of full attention, a request whose first `n` hashes are cached hits at least
as many blocks, up to the last token. -/
theorem Configured.getComputedBlocks (configured : m.Configured config) {spec : KVCacheSpec}
    (isOnly : config.groups = [spec]) (isFull : spec.attention = .full)
    (caching : config.enableCaching = true) {request : Request H}
    (reads : request.skipReadingPrefixCache = false) {n : Nat}
    (enough : n ≤ request.blockHashes.length) (cached : ∀ hash ∈ request.blockHashes.take n,
      (m.blockPool.cachedBlockHashToBlock.getOneBlock ⟨[hash], 0⟩).isSome = true) :
    ∃ blocks numTokens, m.getComputedBlocks request = .ok ([blocks], numTokens) ∧
      min n ((request.numTokens - 1) / (spec.blockSize * config.worldSize)) -
        (if config.useEagle then 1 else 0) ≤ blocks.length := by
  obtain ⟨manager, isManager, isSpec⟩ : ∃ manager, m.singleTypeManagers = [manager] ∧
      (manager.kvCacheSpec, manager.blockSize, manager.kvCacheGroupId) =
        (spec, spec.blockSize * config.worldSize, 0) := by
    have groups := configured.groups
    rw [isOnly] at groups
    obtain ⟨manager, isManager, isSpec⟩ := List.map_eq_singleton_iff.mp groups
    exact ⟨manager, isManager, isSpec⟩
  simp only [Prod.mk.injEq] at isSpec
  obtain ⟨sameSpec, sameSize, -⟩ := isSpec
  have cachedHashes : ∀ hash ∈ (request.blockHashes.map fun hash => [hash]).take n,
      (m.blockPool.cachedBlockHashToBlock.getOneBlock ⟨hash, 0⟩).isSome = true := by
    intro hash member
    rw [← List.map_take] at member
    obtain ⟨single, isTaken, rfl⟩ := List.mem_map.mp member
    exact cached single isTaken
  obtain ⟨blocks, isHit, length⟩ := fullAttentionHit_length
    (spec.blockSize * config.worldSize) (request.numTokens - 1) m.useEagle
    (enough.trans_eq (List.length_map _).symm) cachedHashes
  rw [configured.useEagle] at length
  refine ⟨blocks, blocks.length * manager.blockSize, ?_, length⟩
  rw [KVCacheManager.getComputedBlocks, configured.enableCaching, caching, reads]
  simp only [Bool.not_true, Bool.or_self, Bool.false_eq_true, if_false]
  rw [findLongestCacheHit, isManager]
  dsimp only
  rw [BlockPool.findLongestCacheHit, sameSpec, isFull, sameSize, configured.worldSize]
  dsimp only
  rw [isHit]
  rfl

end KVCacheManager

/-! ## Retention -/

namespace Lifecycle

variable {H : Type} [DecidableEq H] {hasher : Option (BlockHasher H)} {config : KVCacheConfig}
  {s s' t : Lifecycle H} {op : LifecycleOp H} {id : Nat}

/-- The finished request of `s` is still there in `t`, with its tables and the hashes of its
blocks. -/
structure Retains (id : Nat) (s t : Lifecycle H) : Prop where
  finished : ∃ request, t.requests.get? id = some request ∧ request.isFinished = true
  tables : t.kv.getBlocks id = s.kv.getBlocks id
  hashes : ∀ b key, s.kv.Holds id b → (s.kv.blockPool.blocks b).blockHash = some key →
    (t.kv.blockPool.blocks b).blockHash = some key

omit [DecidableEq H] in
theorem Retains.holds (retains : Retains id s t) {b : Nat} (held : s.kv.Holds id b) :
    t.kv.Holds id b := by
  rw [holds_iff_mem_getBlocks] at held ⊢
  rw [retains.tables]
  exact held

theorem Retains.step (free : ∀ h ∈ hasher, h.CollisionFree) (retains : Retains id s t)
    (ok : t.kv.Ok) (step : Step hasher t op s') (notUnpinned : op ≠ .unpin id)
    (notReplaced : ∀ request, op = .add request → request.requestId ≠ id) : Retains id s s' := by
  obtain ⟨request, stored, finished⟩ := retains.finished
  obtain ⟨⟨later, storedLater, finishedLater, -⟩, tables, hashes⟩ :=
    step.finished_stays free ok stored finished notUnpinned notReplaced
  exact ⟨⟨later, storedLater, finishedLater⟩, tables.trans retains.tables,
    fun b key held isHashed =>
      hashes b key (retains.holds held) (retains.hashes b key held isHashed)⟩

def Keeps (id : Nat) (op : LifecycleOp H) : Prop :=
  op ≠ .unpin id ∧ ∀ request, op = .add request → request.requestId ≠ id

/-- `get_new_blocks` may be called on this pool: it is the pool of the state, or `allocate_slots`
for an unfinished request gets to it. -/
def CallsGetNewBlocks (hasher : Option (BlockHasher H)) (s : Lifecycle H) (pool : BlockPool H) :
    Prop :=
  pool = s.kv.blockPool ∨ ∃ args : KVCacheManager.SlotArgs H,
    s.requests.get? args.request.requestId = some args.request ∧ args.request.isFinished = false ∧
      args.Issued hasher s.kv ∧ s.kv.AllocatesFrom args pool

theorem CallsGetNewBlocks.not_mem (free : ∀ h ∈ hasher, h.CollisionFree) {pool pool' : BlockPool H}
    (calls : s.CallsGetNewBlocks hasher pool) (ok : s.kv.Ok) {request : Request H}
    (stored : s.requests.get? id = some request) (finished : request.isFinished = true) {b n : Nat}
    (held : s.kv.Holds id b) {ret : List Nat} (returns : pool.getNewBlocks n = .ok (ret, pool')) :
    b ∉ ret := by
  intro member
  have inUse : ∃ holders, pool.Ok holders ∧ b ∈ holders := by
    rcases calls with rfl | ⟨args, found, unfinished, issued, allocates⟩
    · exact ⟨_, ok.pool, mem_holders_of_holds held⟩
    · have different : id ≠ args.request.requestId := by
        rintro rfl
        obtain rfl := Option.some.inj (stored.symm.trans found)
        cases unfinished.symm.trans finished
      obtain ⟨holders, okPool, others⟩ := allocates.ok ok (issued.valid free)
      exact ⟨holders, okPool, others id b different held⟩
  obtain ⟨holders, okPool, inUse⟩ := inUse
  obtain ⟨-, -, -, -, fresh, -⟩ := (okPool.getNewBlocks_meets n).ok returns
  exact (fresh b member).2.2.1 inUse

/-- The keys of the hashed blocks of a request, in the order of its table. -/
def hashedKeys (id : Nat) (s : Lifecycle H) : List (BlockHashWithGroupId H) :=
  (s.kv.getBlocks id).flatten.filterMap fun b => (s.kv.blockPool.blocks b).blockHash

/-- A finished request is still stored only if it was pinned.  Until it is unpinned its table
stays as it is; its hashed blocks stay referenced, hashed and cached, and are not handed out; and
a request that reads the prefix cache and whose hashes start with theirs finds them all, up to
its last token (with EAGLE, up to one block). -/
theorem pinned_prefix_stays (free : ∀ h ∈ hasher, h.CollisionFree) {spec : KVCacheSpec}
    (isOnly : config.groups = [spec]) (isFull : spec.attention = .full)
    (caching : config.enableCaching = true) {before after : List (LifecycleOp H)}
    {retained : Request H} (reached : Trace (Step hasher) (init config) before s)
    (stored : s.requests.get? id = some retained) (finished : retained.isFinished = true)
    (later : Trace (Step hasher) s after t) (others : ∀ op ∈ after, Keeps id op) :
    t.kv.getBlocks id = s.kv.getBlocks id ∧
    (∀ b key, s.kv.Holds id b → (s.kv.blockPool.blocks b).blockHash = some key →
      1 ≤ (t.kv.blockPool.blocks b).refCnt ∧ (t.kv.blockPool.blocks b).blockHash = some key ∧
        b ∈ t.kv.blockPool.cachedBlockHashToBlock.cache key ∧
        ∀ pool n ret pool', t.CallsGetNewBlocks hasher pool →
          pool.getNewBlocks n = .ok (ret, pool') → b ∉ ret) ∧
    ∀ request : Request H, request.skipReadingPrefixCache = false →
      s.hashedKeys id <+: request.blockHashes.map (fun hash => ⟨[hash], 0⟩) →
        ∃ blocks numTokens, t.kv.getComputedBlocks request = .ok ([blocks], numTokens) ∧
          min (s.hashedKeys id).length
              ((request.numTokens - 1) / (spec.blockSize * config.worldSize)) -
            (if config.useEagle then 1 else 0) ≤ blocks.length := by
  have keep : ∀ s op s', Step hasher s op s' → s.Inv hasher ∧ s.kv.Configured config →
      s'.Inv hasher ∧ s'.kv.Configured config := fun s op s' step held =>
    ⟨held.1.step free step, held.2.effect (step.effect free held.1.ok)⟩
  have atS := reached.invariant keep
    ⟨inv_init config hasher, configured_init config⟩
  obtain ⟨⟨inv, configured⟩, retains⟩ :
      (t.Inv hasher ∧ t.kv.Configured config) ∧ Retains id s t :=
    later.invariant_of
      (P := fun t => (t.Inv hasher ∧ t.kv.Configured config) ∧ Retains id s t)
      (fun _ _ _ keeps step held => ⟨keep _ _ _ step held.1,
        held.2.step free held.1.1.ok step keeps.1 keeps.2⟩)
      others ⟨atS, ⟨retained, stored, finished⟩, rfl, fun _ _ _ isHashed => isHashed⟩
  have arranged := (served_of_trace reached).arranged caching free
  have ok := inv.ok
  have cached : ∀ b key, s.kv.Holds id b → (s.kv.blockPool.blocks b).blockHash = some key →
      b ∈ t.kv.blockPool.cachedBlockHashToBlock.cache key := fun b key held isHashed =>
    (ok.pool.cache.mirror key b).mpr (retains.hashes b key held isHashed)
  refine ⟨retains.tables, fun b key held isHashed => ?_, fun request reads starts => ?_⟩
  · have heldT := retains.holds held
    have notNull : b ≠ nullBlock := arranged.not_null (by simp [isOnly, isFull]) held
    have inRange := ok.pool.cache.hashed b key (retains.hashes b key held isHashed)
    have counted := (ok.freeQueue.1 b notNull inRange).2
    have positive := Multiset.count_pos.mpr (mem_holders_of_holds heldT)
    obtain ⟨request, storedT, finishedT⟩ := retains.finished
    refine ⟨by omega, retains.hashes b key held isHashed, cached b key held isHashed,
      fun pool n ret pool' calls returns => ?_⟩
    exact calls.not_mem free ok storedT finishedT heldT returns
  · have enough : (s.hashedKeys id).length ≤ request.blockHashes.length := by
      have length := starts.length_le
      rwa [List.length_map] at length
    refine configured.getComputedBlocks isOnly isFull caching reads enough fun hash member => ?_
    have isKey : (⟨[hash], 0⟩ : BlockHashWithGroupId H) ∈ s.hashedKeys id := by
      rw [List.prefix_iff_eq_take.mp starts, ← List.map_take]
      exact List.mem_map_of_mem member
    obtain ⟨b, inTable, isHashed⟩ := List.mem_filterMap.mp isKey
    have held := holds_iff_mem_getBlocks.mpr inTable
    exact Option.isSome_iff_exists.mpr
      (ok.pool.cache.isSome_getOneBlock (retains.hashes b _ held isHashed))

end Lifecycle

def smallRetained (kv : KVCacheManager ContentHash) :
    Lifecycle ContentHash :=
  ⟨kv, (Dict.empty.set 7 smallPinnedRequest).set 7 smallFinishedRequest⟩

theorem smallRetained_reached {config : KVCacheConfig} {newBlocks : Option (List (List Nat))}
    {kv : KVCacheManager ContentHash}
    (oneGroup : [[]] = (init config : KVCacheManager
      ContentHash).emptyKVCacheBlocks)
    (allocated : (init config).allocateSlots smallPinnedArgs = .ok (newBlocks, kv)) :
    Trace (Lifecycle.Step (some (contentHasher 2))) (Lifecycle.init config)
      [.add smallPinnedRequest, .allocate smallPinnedArgs, .finish smallFinishedRequest]
      (smallRetained kv) := by
  have hashed : smallPinnedRequest.Hashed (some (contentHasher 2)) :=
    (Request.hashed_init _ _).hashNewFullBlocks
  exact .cons (.add_first hashed rfl) <|
    .cons (.allocate rfl rfl ⟨hashed, Or.inl oneGroup⟩ allocated) <|
    .cons (.finishPinned ⟨rfl, rfl, hashed⟩ rfl rfl rfl) (.nil _)

/-- A request whose prompt starts with that of the small pinned request. -/
def smallReader (skipReadingPrefixCache : Option Bool) : Request ContentHash :=
  (Request.init { requestId := 8, promptTokenIds := [1, 2, 3, 4, 5],
                  samplingParams :=
                    some { maxTokens := 1, skipReadingPrefixCache } }).hashNewFullBlocks
    (some (contentHasher 2))

def smallEagleConfig : KVCacheConfig where
  numBlocks := 4
  groups := [⟨.full, 2⟩]
  maxModelLen := 8
  hashBlockSize := 2
  enableCaching := true
  useEagle := true
  worldSize := 1
  numBlocks_pos := smallKVCacheConfig.numBlocks_pos
  hashBlockSize_eq := smallKVCacheConfig.hashBlockSize_eq

/-- The two hashed blocks of the retained request are a prefix of the reader's. -/
def sharesSmallPrefix (kv : KVCacheManager ContentHash) (reader : Request ContentHash) : Bool :=
  (smallRetained kv).hashedKeys 7 = reader.blockHashes.map fun hash => ⟨[hash], 0⟩

/-- What the run of the small pinned request comes to, for a check of its last state. -/
theorem smallRetained_of_runs (config : KVCacheConfig) (reader : Request ContentHash)
    (check : KVCacheManager ContentHash → Bool)
    (oneGroup : [[]] = (init config : KVCacheManager ContentHash).emptyKVCacheBlocks)
    (runs : ∃ result, (init config).allocateSlots smallPinnedArgs = .ok result ∧
      sharesSmallPrefix result.2 reader = true ∧ check result.2 = true) :
    ∃ ops kv, Trace (Lifecycle.Step (some (contentHasher 2))) (Lifecycle.init config) ops
        (smallRetained kv) ∧
      (smallRetained kv).hashedKeys 7 = reader.blockHashes.map (fun hash => ⟨[hash], 0⟩) ∧
      check kv = true := by
  obtain ⟨⟨newBlocks, kv⟩, allocated, shares, checked⟩ := runs
  exact ⟨_, kv, smallRetained_reached oneGroup allocated, of_decide_eq_true shares, checked⟩

theorem smallRetained_stored (kv : KVCacheManager ContentHash) :
    (smallRetained kv).requests.get? 7 = some smallFinishedRequest :=
  Dict.get?_set_self _ _ _

/-- A request that skips reading the prefix cache finds nothing, and with EAGLE the last of the
retained blocks is not reported. -/
theorem retained_prefix_not_reported :
    (∃ ops s, Trace (Lifecycle.Step (some (contentHasher 2))) (Lifecycle.init smallKVCacheConfig)
        ops s ∧
      s.requests.get? 7 = some smallFinishedRequest ∧
      s.hashedKeys 7 <+: (smallReader (some true)).blockHashes.map (fun hash => ⟨[hash], 0⟩) ∧
      min (s.hashedKeys 7).length (((smallReader (some true)).numTokens - 1) / 2) = 2 ∧
      s.kv.getComputedBlocks (smallReader (some true)) = .ok ([[]], 0)) ∧
    ∃ ops s, Trace (Lifecycle.Step (some (contentHasher 2))) (Lifecycle.init smallEagleConfig)
        ops s ∧
      s.requests.get? 7 = some smallFinishedRequest ∧
      s.hashedKeys 7 <+: (smallReader none).blockHashes.map (fun hash => ⟨[hash], 0⟩) ∧
      min (s.hashedKeys 7).length (((smallReader none).numTokens - 1) / 2) = 2 ∧
      s.kv.getComputedBlocks (smallReader none) = .ok ([[1]], 2) := by
  constructor
  · obtain ⟨ops, kv, reached, same, computed⟩ := smallRetained_of_runs
      smallKVCacheConfig (smallReader (some true))
      (fun kv => decide (kv.getComputedBlocks (smallReader (some true)) = .ok ([[]], 0)))
      rfl (by decide +kernel)
    refine ⟨ops, _, reached, smallRetained_stored kv, same ▸ List.prefix_rfl, ?_,
      of_decide_eq_true computed⟩
    rw [same]
    decide +kernel
  · obtain ⟨ops, kv, reached, same, computed⟩ := smallRetained_of_runs
      smallEagleConfig (smallReader none)
      (fun kv => decide (kv.getComputedBlocks (smallReader none) = .ok ([[1]], 2)))
      rfl (by decide +kernel)
    refine ⟨ops, _, reached, smallRetained_stored kv, same ▸ List.prefix_rfl, ?_,
      of_decide_eq_true computed⟩
    rw [same]
    decide +kernel

/-- The small reader arrives after the small pinned request has finished. -/
theorem pinned_prefix_stays_smallReader :
    ∃ before s t, Trace (Lifecycle.Step (some (contentHasher 2)))
        (Lifecycle.init smallKVCacheConfig) before s ∧
      Trace (Lifecycle.Step (some (contentHasher 2))) s [.add (smallReader none)] t ∧
      t.kv.getBlocks 7 = s.kv.getBlocks 7 ∧
      ∃ blocks numTokens, t.kv.getComputedBlocks (smallReader none) = .ok ([blocks], numTokens) ∧
        2 ≤ blocks.length := by
  have free := contentHasher_free 2
  obtain ⟨before, kv, reached, same, -⟩ := smallRetained_of_runs smallKVCacheConfig
    (smallReader none) (fun _ => true) rfl (by decide +kernel)
  have hashed : (smallReader none).Hashed (some (contentHasher 2)) :=
    (Request.hashed_init _ _).hashNewFullBlocks
  have isNew : ∀ old, (smallRetained kv).requests.get? 8 = some old → old.isFinished = true := by
    intro old found
    rw [smallRetained, Dict.get?_set_of_ne _ _ (by decide), Dict.get?_set_of_ne _ _ (by decide)]
      at found
    cases found
  have later : Trace (Lifecycle.Step (some (contentHasher 2))) (smallRetained kv)
      [.add (smallReader none)]
      { smallRetained kv with requests := (smallRetained kv).requests.set 8 (smallReader none) } :=
    .cons (.add hashed rfl isNew) (.nil _)
  have others : ∀ op ∈ [LifecycleOp.add (smallReader none)], Lifecycle.Keeps 7 op := by
    intro op member
    rw [List.mem_singleton] at member
    subst member
    refine ⟨nofun, fun request isAdd => ?_⟩
    cases isAdd
    decide
  obtain ⟨tables, -, reports⟩ := Lifecycle.pinned_prefix_stays free rfl rfl rfl reached
    (smallRetained_stored kv) rfl later others
  obtain ⟨blocks, numTokens, computed, length⟩ := reports (smallReader none) rfl
    (same ▸ List.prefix_rfl)
  refine ⟨before, _, _, reached, later, tables, blocks, numTokens, computed, ?_⟩
  rw [same] at length
  exact length

end Kalypso.Engine
