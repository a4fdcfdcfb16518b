import Mathlib.Data.Finset.Card
import Mathlib.Data.Finset.Range
import Kalypso.Engine.Allocation

/-!
# The block pool over all runs

The operations of the KV-cache manager in any order, from a new manager on.
-/

set_option autoImplicit false

namespace Kalypso.Engine

open Kalypso.Lib BlockPool

inductive KVOp (H : Type) where
  | allocateSlots (args : KVCacheManager.SlotArgs H)
  | cacheBlocks (request : Request H) (numComputedTokens : Int)
  | removeSkippedBlocks (requestId : Nat) (numComputedTokens : Int)
  | free (requestId : Nat)
  | pinRequest (requestId : Nat)
  | unpinRequest (requestId : Nat)
  | evictBlocks (blockIds : List Nat)
  | resetPrefixCache

open KVCacheManager

namespace KVCacheManager

variable {H : Type} [DecidableEq H] {config : KVCacheConfig} {hasher : Option (BlockHasher H)}
  {m m' : KVCacheManager H}

def exec (m : KVCacheManager H) : KVOp H → Except EngineError (KVCacheManager H)
  | .allocateSlots args => do
      let (_, m) ← m.allocateSlots args
      return m
  | .cacheBlocks request numComputedTokens => m.cacheBlocks request numComputedTokens
  | .removeSkippedBlocks requestId numComputedTokens =>
      m.removeSkippedBlocks requestId numComputedTokens
  | .free requestId => m.free requestId
  | .pinRequest requestId => .ok (m.pinRequest requestId)
  | .unpinRequest requestId => m.unpinRequest requestId
  | .evictBlocks blockIds => m.evictBlocks blockIds
  | .resetPrefixCache => .ok m.resetPrefixCache.2

section

omit [DecidableEq H]

/-- What the caller of `allocate_slots` passes: a request with the hashes of its hasher, and no
hit or the hit that `get_computed_blocks` has just found for it. -/
def SlotArgs.Issued (hasher : Option (BlockHasher H)) (m : KVCacheManager H) (args : SlotArgs H) :
    Prop :=
  args.request.Hashed hasher ∧
    (args.newComputedBlocks = m.emptyKVCacheBlocks ∨
      ∃ n, m.getComputedBlocks args.request = .ok (args.newComputedBlocks, n))

def Issued (hasher : Option (BlockHasher H)) (m : KVCacheManager H) : KVOp H → Prop
  | .allocateSlots args => args.Issued hasher m
  | _ => True

/-- The states of a manager.  An operation that raises ends the run. -/
inductive Reachable (config : KVCacheConfig) (hasher : Option (BlockHasher H)) :
    KVCacheManager H → Prop
  | init : Reachable config hasher (init config)
  | step {m m' : KVCacheManager H} (op : KVOp H) : Reachable config hasher m →
      m.Issued hasher op → m.exec op = .ok m' → Reachable config hasher m'

theorem SlotArgs.Issued.perGroup {args : SlotArgs H} (issued : args.Issued hasher m) :
    List.Forall₂ (m.blockPool.HitFor args.request.blockHashes)
      (List.range m.singleTypeManagers.length) args.newComputedBlocks := by
  obtain ⟨-, noHit | ⟨n, computed⟩⟩ := issued
  · rw [noHit]
    exact emptyKVCacheBlocks_perGroup m _
  · exact getComputedBlocks_perGroup computed

theorem SlotArgs.Issued.valid {args : SlotArgs H} (issued : args.Issued hasher m)
    (free : ∀ h ∈ hasher, h.CollisionFree) : args.Valid m := by
  have perGroup := issued.perGroup
  have sameLength := perGroup.length_eq
  rw [List.length_range] at sameLength
  exact ⟨sameLength.symm, issued.1.nodup free, hits_of_perGroup perGroup⟩

theorem init_table {config : KVCacheConfig} {manager : SingleTypeKVCacheManager}
    (isManager : manager ∈ (init config : KVCacheManager H).singleTypeManagers) (requestId : Nat) :
    manager.table requestId = [] := by
  obtain ⟨spec, _, rfl⟩ := List.mem_map.mp isManager
  rfl

theorem not_holds_init (config : KVCacheConfig) (requestId b : Nat) :
    ¬ (init config : KVCacheManager H).Holds requestId b := by
  rintro ⟨manager, isManager, inTable⟩
  rw [init_table isManager] at inTable
  exact List.not_mem_nil inTable

theorem init_ok (config : KVCacheConfig) : (init config : KVCacheManager H).Ok := by
  have noHolders : (init config : KVCacheManager H).holders = 0 := by
    refine Multiset.eq_zero_of_forall_notMem fun b inUse => ?_
    obtain ⟨requestId, holds⟩ := mem_holders_iff.mp inUse
    exact not_holds_init config requestId b holds
  refine ⟨?_, fun manager isManager requestId => ?_⟩
  · rw [noHolders]
    exact BlockPool.init_ok config.numBlocks_pos _ _
  · rw [init_table isManager]
    exact List.nodup_nil

theorem Ok.freeQueue (ok : m.Ok) :
    (∀ b, b ≠ nullBlock → b < m.blockPool.numGpuBlocks →
      (b ∈ m.blockPool.freeBlockQueue.blocks ↔
        (m.blockPool.blocks b).refCnt = 0 ∧ (m.blockPool.blocks b).pinned = false) ∧
      (m.blockPool.blocks b).refCnt = m.holders.count b) ∧
    m.blockPool.freeBlockQueue.blocks.Nodup ∧
    m.blockPool.freeBlockQueue.numFreeBlocks = m.blockPool.freeBlockQueue.blocks.length := by
  refine ⟨fun b notNull inRange => ?_, ok.pool.refs.nodup, ok.pool.numFree⟩
  have isManaged : Managed m.blockPool.numGpuBlocks b := ⟨notNull, inRange⟩
  exact ⟨ok.pool.refs.free_iff b isManaged, ok.pool.refs.counted b isManaged⟩

theorem Ok.free_or_held (ok : m.Ok) {b : Nat} (notNull : b ≠ nullBlock)
    (inRange : b < m.blockPool.numGpuBlocks) (unpinned : (m.blockPool.blocks b).pinned = false) :
    b ∈ m.blockPool.freeBlockQueue.blocks ∨ ∃ id, m.Holds id b := by
  obtain ⟨queued, counted⟩ := ok.freeQueue.1 b notNull inRange
  by_cases held : ∃ id, m.Holds id b
  · exact Or.inr held
  · have absent := mt mem_holders_iff.mp held
    refine Or.inl (queued.mpr ⟨?_, unpinned⟩)
    rw [counted, Multiset.count_eq_zero.mpr absent]
    rfl

theorem Ok.lost (ok : m.Ok) {b : Nat} (notNull : b ≠ nullBlock)
    (inRange : b < m.blockPool.numGpuBlocks)
    (noRefs : (m.blockPool.blocks b).refCnt = 0) (isPinned : (m.blockPool.blocks b).pinned = true) :
    b ∉ m.blockPool.freeBlockQueue.blocks ∧ ∀ id, ¬ m.Holds id b := by
  obtain ⟨queued, counted⟩ := ok.freeQueue.1 b notNull inRange
  refine ⟨fun isFree => ?_, fun id holds => ?_⟩
  · cases isPinned.symm.trans (queued.mp isFree).2
  · have positive := Multiset.count_pos.mpr (mem_holders_iff.mpr ⟨id, holds⟩)
    omega

/-- The blocks that stand in a block table or are pinned. -/
def inUse (m : KVCacheManager H) : Finset Nat :=
  ((Finset.range m.blockPool.numGpuBlocks).erase nullBlock).filter fun b =>
    b ∈ m.holders ∨ (m.blockPool.blocks b).pinned = true

theorem Ok.card_inUse (ok : m.Ok) :
    m.inUse.card + m.blockPool.getNumFreeBlocks = (m.blockPool.numGpuBlocks - 1 : Nat) := by
  obtain ⟨blocks, once, counter⟩ := ok.freeQueue
  have unqueued : m.inUse = (Finset.range m.blockPool.numGpuBlocks).erase nullBlock \
      m.blockPool.freeBlockQueue.blocks.toFinset := by
    rw [inUse, Finset.sdiff_eq_filter]
    refine Finset.filter_congr fun b member => ?_
    obtain ⟨notNull, inRange⟩ := Finset.mem_erase.mp member
    obtain ⟨queued, counted⟩ := blocks b notNull (Finset.mem_range.mp inRange)
    rw [List.mem_toFinset, queued, counted, Int.natCast_eq_zero, Multiset.count_eq_zero,
      not_and_or, not_not, Bool.not_eq_false]
  have within : m.blockPool.freeBlockQueue.blocks.toFinset ⊆
      (Finset.range m.blockPool.numGpuBlocks).erase nullBlock := by
    intro b member
    obtain ⟨notNull, inRange⟩ := ok.pool.refs.within b (List.mem_toFinset.mp member)
    exact Finset.mem_erase.mpr ⟨notNull, Finset.mem_range.mpr inRange⟩
  have null : nullBlock ∈ Finset.range m.blockPool.numGpuBlocks :=
    Finset.mem_range.mpr ok.pool.positive
  have split := Finset.card_sdiff_add_card_eq_card within
  rw [← unqueued, List.toFinset_card_of_nodup once, Finset.card_erase_of_mem null,
    Finset.card_range] at split
  rw [getNumFreeBlocks, counter]
  exact_mod_cast split

end

/-- Every operation keeps the manager consistent and raises no fault of the pool. -/
theorem Ok.exec (ok : m.Ok) (free : ∀ h ∈ hasher, h.CollisionFree) {op : KVOp H}
    (issued : m.Issued hasher op) :
    Safely (fun m' => m'.Ok ∧ SameConfig m.blockPool m'.blockPool ∧
      m'.enableCaching = m.enableCaching) (m.exec op) := by
  cases op with
  | allocateSlots args =>
    exact (ok.allocateSlots (SlotArgs.Issued.valid issued free)).bind fun _ effect =>
      ⟨effect.ok, effect.config, effect.enableCaching⟩
  | cacheBlocks request numComputedTokens =>
    simp only [KVCacheManager.exec, KVCacheManager.cacheBlocks]
    split
    · exact (ok.cacheBlocks request numComputedTokens).mono fun _ effect =>
        ⟨effect.ok, effect.config, effect.enableCaching⟩
    · exact ⟨ok, .refl _, rfl⟩
  | removeSkippedBlocks requestId numComputedTokens =>
    exact (ok.removeSkippedBlocks requestId numComputedTokens).mono fun _ ⟨effect, _⟩ =>
      ⟨effect.ok, effect.config, effect.enableCaching⟩
  | free requestId =>
    exact (ok.free requestId).mono fun _ ⟨⟨effect, _⟩, _⟩ =>
      ⟨effect.ok, effect.config, effect.enableCaching⟩
  | pinRequest requestId =>
    exact ⟨(ok.pinRequest requestId).ok, (ok.pinRequest requestId).config, rfl⟩
  | unpinRequest requestId =>
    exact (ok.unpinRequest requestId).mono fun _ ⟨effect, _⟩ =>
      ⟨effect.ok, effect.config, effect.enableCaching⟩
  | evictBlocks blockIds =>
    exact (ok.pool.evictBlocks blockIds).bind fun _ ⟨okPool, same⟩ =>
      ⟨⟨okPool, ok.distinct⟩, same.toSameConfig, rfl⟩
  | resetPrefixCache =>
    obtain ⟨okPool, same⟩ := ok.pool.resetPrefixCache
    exact ⟨⟨okPool, ok.distinct⟩, same.toSameConfig, rfl⟩

theorem Reachable.ok (reachable : Reachable config hasher m)
    (free : ∀ h ∈ hasher, h.CollisionFree) :
    m.Ok ∧ m.blockPool.numGpuBlocks = config.numBlocks := by
  induction reachable with
  | init => exact ⟨init_ok config, rfl⟩
  | step op _ issued ran ih =>
    obtain ⟨ok', same, -⟩ := (ih.1.exec free issued).ok ran
    exact ⟨ok', same.numGpuBlocks.trans ih.2⟩

/-- `allocate_slots` calls `get_new_blocks` on this pool: the hit is in the tables, and the
groups of `done` have got their blocks. -/
def AllocatesFrom (m : KVCacheManager H) (args : SlotArgs H) (pool : BlockPool H) : Prop :=
  ∃ m₁ done rest newBlocks managers, m.takeComputedBlocks args = .ok (true, m₁) ∧
    m₁.singleTypeManagers = done ++ rest ∧
    allocateNewBlocks args.request.requestId (m₁.numTokensNeedSlot args) args.numEncoderTokens
      m₁.blockPool done = .ok (newBlocks, pool, managers)

/-- The pool is consistent in the middle of an allocation, too, and the blocks of the other
requests are in use. -/
theorem AllocatesFrom.ok {args : SlotArgs H} {pool : BlockPool H}
    (allocates : m.AllocatesFrom args pool) (ok : m.Ok) (valid : args.Valid m) :
    ∃ holders, pool.Ok holders ∧
      ∀ other b, other ≠ args.request.requestId → m.Holds other b → b ∈ holders := by
  obtain ⟨m₁, done, rest, newBlocks, managers, taken, splits, allocated⟩ := allocates
  have effect := (ok.takeComputedBlocks valid).ok taken
  have start := effect.ok.pool
  have distinct := effect.ok.distinct
  rw [holders, splits, holdersOf_append] at start
  rw [splits] at distinct
  have kept := (forEachManager_keeps (allocateNewBlocks_keeps _ _ _) done _ _ start
    fun manager isManager => distinct manager (List.mem_append_left rest isManager)).ok allocated
  refine ⟨_, kept.ok, fun other b different held => ?_⟩
  obtain ⟨manager, isManager, inTable⟩ := (holds_of_frame different effect.frame).mpr held
  rw [splits] at isManager
  rcases List.mem_append.mp isManager with isDone | isRest
  · have tables := tables_of_frame different kept.frame
    have inDone : manager.table other ∈ done.map (SingleTypeKVCacheManager.table other) :=
      List.mem_map_of_mem isDone
    rw [← tables] at inDone
    obtain ⟨manager', isManager', same⟩ := List.mem_map.mp inDone
    rw [← same] at inTable
    exact Multiset.mem_add.mpr (Or.inl (mem_holdersOf.mpr
      ⟨manager', isManager', SingleTypeKVCacheManager.mem_holders_of_table inTable⟩))
  · exact Multiset.mem_add.mpr (Or.inr (mem_holdersOf.mpr
      ⟨manager, isRest, SingleTypeKVCacheManager.mem_holders_of_table inTable⟩))

/-- The free queue holds exactly the blocks that are neither referenced nor pinned, once each;
the reference count of a block is the number of its occurrences in the block tables.  No
operation finds the queue and the counts in disagreement, and `get_new_blocks`, whenever it is
called, returns blocks that are neither referenced nor pinned. -/
theorem pool_representation (free : ∀ h ∈ hasher, h.CollisionFree)
    (reachable : Reachable config hasher m) :
    (∀ b, b ≠ nullBlock → b < config.numBlocks →
      (b ∈ m.blockPool.freeBlockQueue.blocks ↔
        (m.blockPool.blocks b).refCnt = 0 ∧ (m.blockPool.blocks b).pinned = false) ∧
      (m.blockPool.blocks b).refCnt = m.holders.count b) ∧
    m.blockPool.freeBlockQueue.blocks.Nodup ∧
    m.blockPool.freeBlockQueue.numFreeBlocks = m.blockPool.freeBlockQueue.blocks.length ∧
    (∀ op e, m.Issued hasher op → m.exec op = .error e → ¬ e.IsPoolFault) ∧
    ∀ pool, (pool = m.blockPool ∨ ∃ args,
      SlotArgs.Issued hasher m args ∧ m.AllocatesFrom args pool) →
      ∀ n, pool.getNewBlocks n ≠ .error .newBlockReferenced ∧
        ∀ ret pool', pool.getNewBlocks n = .ok (ret, pool') →
          ∀ b ∈ ret, (pool.blocks b).refCnt = 0 ∧ (pool.blocks b).pinned = false := by
  obtain ⟨ok, sameNum⟩ := reachable.ok free
  obtain ⟨queued, once, counted⟩ := ok.freeQueue
  rw [sameNum] at queued
  refine ⟨queued, once, counted, fun op e issued raises => (ok.exec free issued).error raises, ?_⟩
  intro pool isCalled n
  have okPool : ∃ holders, pool.Ok holders := by
    rcases isCalled with rfl | ⟨args, issued, allocates⟩
    · exact ⟨_, ok.pool⟩
    · obtain ⟨holders, okPool, -⟩ := allocates.ok ok (issued.valid free)
      exact ⟨holders, okPool⟩
  obtain ⟨holders, okPool⟩ := okPool
  have taken := okPool.getNewBlocks_meets n
  refine ⟨fun raises => ?_, fun ret pool' returns b member => ?_⟩
  · cases taken.error raises
  · obtain ⟨-, -, -, -, unused, -⟩ := taken.ok returns
    exact ⟨(unused b member).1, (unused b member).2.1⟩

/-- `reset_prefix_cache` forgets all hashes and nothing else if no block is in use, and changes
nothing otherwise. -/
theorem resetPrefixCache_iff (free : ∀ h ∈ hasher, h.CollisionFree)
    (reachable : Reachable config hasher m) :
    (m.inUse = ∅ ∧ ∃ m', m.resetPrefixCache = (true, m') ∧
      (∀ b, m'.blockPool.blocks b = { m.blockPool.blocks b with blockHash := none }) ∧
      m'.blockPool.cachedBlockHashToBlock = .empty ∧
      m'.blockPool.freeBlockQueue = m.blockPool.freeBlockQueue ∧
      m'.singleTypeManagers = m.singleTypeManagers) ∨
    (m.inUse ≠ ∅ ∧ m.resetPrefixCache = (false, m)) := by
  have ok := (reachable.ok free).1
  have counts := ok.card_inUse
  have positive := ok.pool.positive
  unfold resetPrefixCache BlockPool.resetPrefixCache
  split
  · rename_i used
    refine .inr ⟨fun unused => used ?_, rfl⟩
    rw [unused, Finset.card_empty] at counts
    omega
  · refine .inl ⟨Finset.card_eq_zero.mp ?_, _, rfl, fun _ => rfl, rfl, rfl, rfl⟩
    omega

end KVCacheManager

def smallKVCacheConfig : KVCacheConfig where
  numBlocks := 4
  groups := [⟨.full, 2⟩]
  maxModelLen := 8
  hashBlockSize := 2
  enableCaching := true
  useEagle := false
  worldSize := 1
  numBlocks_pos := by decide
  hashBlockSize_eq := by
    rintro spec - isOnly
    cases isOnly
    rfl

def smallPinnedRequest : Request ContentHash :=
  (Request.init { requestId := 7, promptTokenIds := [1, 2, 3, 4],
                  samplingParams := some { maxTokens := 1, pinned := true } }).hashNewFullBlocks
    (some (contentHasher 2))

theorem pool_representation_pinned :
    ∃ m, KVCacheManager.Reachable smallKVCacheConfig (some (contentHasher 2)) m ∧
      (m.blockPool.blocks 1).refCnt = 1 ∧ (m.blockPool.blocks 1).pinned = true ∧
      (m.blockPool.blocks 1).refCnt = m.holders.count 1 ∧
      m.blockPool.freeBlockQueue.numFreeBlocks = m.blockPool.freeBlockQueue.blocks.length := by
  have free := contentHasher_free 2
  have issued : (init smallKVCacheConfig).Issued (some (contentHasher 2))
      (.allocateSlots ⟨smallPinnedRequest, 4, 0, [[]], 0, false, 0⟩) :=
    ⟨(Request.hashed_init _ _).hashNewFullBlocks, Or.inl rfl⟩
  have ran : ∃ m, (init smallKVCacheConfig).exec
      (.allocateSlots ⟨smallPinnedRequest, 4, 0, [[]], 0, false, 0⟩) = .ok m ∧
      (m.blockPool.blocks 1).refCnt = 1 ∧ (m.blockPool.blocks 1).pinned = true :=
    ⟨_, rfl, rfl, rfl⟩
  obtain ⟨m, ran, count, isPinned⟩ := ran
  have reachable := KVCacheManager.Reachable.init.step _ issued ran
  obtain ⟨queued, -, counted, -⟩ := pool_representation free reachable
  exact ⟨m, reachable, count, isPinned, (queued 1 (by decide) (by decide)).2, counted⟩

/-- When the request is freed its blocks stay pinned, and they keep their hashes.  When it is
unpinned before, the hashes can be forgotten. -/
theorem resetPrefixCache_pinned :
    ∃ pinned unpinned after,
      KVCacheManager.Reachable smallKVCacheConfig (some (contentHasher 2)) pinned ∧
      KVCacheManager.Reachable smallKVCacheConfig (some (contentHasher 2)) unpinned ∧
      pinned.holders = 0 ∧ pinned.resetPrefixCache = (false, pinned) ∧
      (unpinned.blockPool.blocks 1).blockHash ≠ none ∧
      unpinned.resetPrefixCache = (true, after) ∧ (after.blockPool.blocks 1).blockHash = none := by
  have ran : ∃ m pinned m' unpinned, (init smallKVCacheConfig).exec
      (.allocateSlots ⟨smallPinnedRequest, 4, 0, [[]], 0, false, 0⟩) = .ok m ∧
      m.exec (.free 7) = .ok pinned ∧ pinned.holders = 0 ∧ 1 ∈ pinned.inUse ∧
      m.exec (.unpinRequest 7) = .ok m' ∧ m'.exec (.free 7) = .ok unpinned ∧
      unpinned.inUse = ∅ ∧ (unpinned.blockPool.blocks 1).blockHash ≠ none :=
    ⟨_, _, _, _, rfl, rfl, rfl, by decide +kernel, rfl, rfl, by decide +kernel, by decide +kernel⟩
  obtain ⟨m, pinned, m', unpinned, allocated, freed, unheld, used, unpins, frees, unused, hashed⟩ :=
    ran
  have first : KVCacheManager.Reachable smallKVCacheConfig (some (contentHasher 2)) m :=
    .step (.allocateSlots _) .init ⟨(Request.hashed_init _ _).hashNewFullBlocks, .inl rfl⟩
      allocated
  have reachable := first.step (.free 7) trivial freed
  have reachable' := (first.step (.unpinRequest 7) trivial unpins).step (.free 7) trivial frees
  rcases resetPrefixCache_iff (contentHasher_free 2) reachable with ⟨none, -⟩ | ⟨-, refused⟩
  · simp [none] at used
  · rcases resetPrefixCache_iff (contentHasher_free 2) reachable' with
      ⟨-, after, resets, forgets, -⟩ | ⟨some, -⟩
    · exact ⟨pinned, unpinned, after, reachable, reachable', unheld, refused, hashed, resets,
        congrArg (·.blockHash) (forgets 1)⟩
    · exact absurd unused some

end Kalypso.Engine
