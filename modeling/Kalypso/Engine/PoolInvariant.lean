import Mathlib.Data.Multiset.Replicate
import Kalypso.Engine.BlockPool

/-!
# What the operations of the block pool keep

Two invariants, kept apart because most operations touch only one side.  The reference side
says that the pool is a sound pool of counted references for the blocks in use; the cache
side says that the prefix-cache map mirrors the hashes of the blocks.
-/

set_option autoImplicit false

namespace Kalypso.Engine

open Kalypso.Lib
open KVCacheBlock

/-- The operation returns a result with `P`, or it raises an error that is no fault of the
pool. -/
abbrev Safely {α : Type} (P : α → Prop) (x : Except EngineError α) : Prop :=
  Meets (¬ EngineError.IsPoolFault ·) P x

def Managed (numGpuBlocks b : Nat) : Prop := b ≠ nullBlock ∧ b < numGpuBlocks

instance (numGpuBlocks : Nat) : DecidablePred (Managed numGpuBlocks) :=
  fun b => inferInstanceAs (Decidable (b ≠ nullBlock ∧ b < numGpuBlocks))

theorem FreeKVCacheBlockQueue.numFreeBlocks_appendN {queue : FreeKVCacheBlockQueue}
    (counted : queue.numFreeBlocks = queue.blocks.length) (bs : List Nat) :
    (queue.appendN bs).numFreeBlocks = (queue.appendN bs).blocks.length := by
  simp only [appendN, List.length_append, Int.natCast_add, counted]

namespace BlockPool

variable {H : Type} {pool pool' pool'' : BlockPool H} {holders : Multiset Nat}

def view (pool : BlockPool H) : RefPool Nat where
  count := fun b => (pool.blocks b).refCnt
  kept := fun b => (pool.blocks b).pinned
  free := pool.freeBlockQueue.blocks

structure CacheOk (pool : BlockPool H) : Prop where
  null : ∀ b, (pool.blocks b).isNull = decide (b = nullBlock)
  mirror : ∀ key b, b ∈ pool.cachedBlockHashToBlock.cache key ↔ (pool.blocks b).blockHash = some key
  distinct : ∀ key, (pool.cachedBlockHashToBlock.cache key).Nodup
  hashed : ∀ b key, (pool.blocks b).blockHash = some key → b < pool.numGpuBlocks

/-- The pool is consistent, and `holders` are the blocks in use, with multiplicity. -/
structure Ok (pool : BlockPool H) (holders : Multiset Nat) : Prop where
  positive : 0 < pool.numGpuBlocks
  refs : pool.view.Sound (Managed pool.numGpuBlocks) holders
  numFree : pool.freeBlockQueue.numFreeBlocks = pool.freeBlockQueue.blocks.length
  cache : pool.CacheOk
  held : ∀ b ∈ holders, b < pool.numGpuBlocks

/-! ## Frames -/

structure SameConfig (pool pool' : BlockPool H) : Prop where
  numGpuBlocks : pool'.numGpuBlocks = pool.numGpuBlocks
  enableCaching : pool'.enableCaching = pool.enableCaching
  hashBlockSize : pool'.hashBlockSize = pool.hashBlockSize
  isNull : ∀ b, (pool'.blocks b).isNull = (pool.blocks b).isNull

structure SameCache (pool pool' : BlockPool H) : Prop extends SameConfig pool pool' where
  blockHash : ∀ b, (pool'.blocks b).blockHash = (pool.blocks b).blockHash
  cached : pool'.cachedBlockHashToBlock = pool.cachedBlockHashToBlock

structure SameRefs (pool pool' : BlockPool H) : Prop extends SameConfig pool pool' where
  view : pool'.view = pool.view
  queue : pool'.freeBlockQueue = pool.freeBlockQueue

theorem SameConfig.refl (pool : BlockPool H) : SameConfig pool pool :=
  ⟨rfl, rfl, rfl, fun _ => rfl⟩

theorem SameConfig.trans (first : SameConfig pool pool') (second : SameConfig pool' pool'') :
    SameConfig pool pool'' :=
  ⟨second.numGpuBlocks.trans first.numGpuBlocks, second.enableCaching.trans first.enableCaching,
    second.hashBlockSize.trans first.hashBlockSize,
    fun b => (second.isNull b).trans (first.isNull b)⟩

theorem SameCache.refl (pool : BlockPool H) : SameCache pool pool :=
  ⟨.refl pool, fun _ => rfl, rfl⟩

theorem SameCache.trans (first : SameCache pool pool') (second : SameCache pool' pool'') :
    SameCache pool pool'' :=
  ⟨first.toSameConfig.trans second.toSameConfig,
    fun b => (second.blockHash b).trans (first.blockHash b), second.cached.trans first.cached⟩

theorem SameRefs.refl (pool : BlockPool H) : SameRefs pool pool :=
  ⟨.refl pool, rfl, rfl⟩

theorem SameRefs.trans (first : SameRefs pool pool') (second : SameRefs pool' pool'') :
    SameRefs pool pool'' :=
  ⟨first.toSameConfig.trans second.toSameConfig, second.view.trans first.view,
    second.queue.trans first.queue⟩

theorem CacheOk.same (ok : pool.CacheOk) (same : SameCache pool pool') : pool'.CacheOk := by
  refine ⟨fun b => (same.isNull b).trans (ok.null b), ?_, ?_, ?_⟩
  · intro key b
    rw [same.cached, same.blockHash]
    exact ok.mirror key b
  · rw [same.cached]
    exact ok.distinct
  · intro b key isHashed
    rw [same.blockHash] at isHashed
    rw [same.numGpuBlocks]
    exact ok.hashed b key isHashed

theorem Ok.sameRefs (ok : pool.Ok holders) (same : SameRefs pool pool')
    (cache : pool'.CacheOk) : pool'.Ok holders := by
  refine ⟨same.numGpuBlocks ▸ ok.positive, ?_, ?_, cache, ?_⟩
  · rw [same.view, same.numGpuBlocks]
    exact ok.refs
  · rw [same.queue]
    exact ok.numFree
  · rw [same.numGpuBlocks]
    exact ok.held

theorem Ok.sameCache {holders' : Multiset Nat} (ok : pool.Ok holders) (same : SameCache pool pool')
    (refs : pool'.view.Sound (Managed pool.numGpuBlocks) holders')
    (numFree : pool'.freeBlockQueue.numFreeBlocks = pool'.freeBlockQueue.blocks.length)
    (held : ∀ b ∈ holders', b < pool.numGpuBlocks) : pool'.Ok holders' := by
  refine ⟨same.numGpuBlocks ▸ ok.positive, ?_, numFree, ok.cache.same same, ?_⟩
  · rw [same.numGpuBlocks]
    exact refs
  · rw [same.numGpuBlocks]
    exact held

theorem Ok.add_null (ok : pool.Ok holders) (n : Nat) :
    pool.Ok (Multiset.replicate n nullBlock + holders) := by
  refine ⟨ok.positive, ok.refs.congr ?_, ok.numFree, ok.cache, ?_⟩
  · intro b isManaged
    rw [Multiset.count_add, Multiset.count_replicate, if_neg (Ne.symm isManaged.1), Nat.zero_add]
  · intro b member
    rcases Multiset.mem_add.mp member with isNull | member
    · rw [Multiset.eq_of_mem_replicate isNull]
      exact ok.positive
    · exact ok.held b member

variable {key : BlockHashWithGroupId H} {f : KVCacheBlock H → KVCacheBlock H} {b : Nat}

theorem CacheOk.isSome_getOneBlock (ok : pool.CacheOk)
    (isHashed : (pool.blocks b).blockHash = some key) :
    ∃ first, pool.cachedBlockHashToBlock.getOneBlock key = some first := by
  have member := (ok.mirror key b).mpr isHashed
  cases cached : pool.cachedBlockHashToBlock.cache key with
  | nil => simp [cached] at member
  | cons first rest => exact ⟨first, by simp [BlockHashToBlockMap.getOneBlock, cached]⟩

theorem CacheOk.blockHash_of_getOneBlock (ok : pool.CacheOk)
    (found : pool.cachedBlockHashToBlock.getOneBlock key = some b) :
    (pool.blocks b).blockHash = some key :=
  (ok.mirror key b).mp (List.mem_of_mem_head? found)

/-! ## Changing one block -/

@[simp] theorem modify_blocks_self (b : Nat) (f : KVCacheBlock H → KVCacheBlock H)
    (pool : BlockPool H) : (pool.modify b f).blocks b = f (pool.blocks b) := by
  simp [modify]

theorem modify_blocks_of_ne {b x : Nat} (different : x ≠ b)
    (f : KVCacheBlock H → KVCacheBlock H) (pool : BlockPool H) :
    (pool.modify b f).blocks x = pool.blocks x := by
  simp [modify, different]

theorem modify_field {γ : Type*} (field : KVCacheBlock H → γ) (b : Nat)
    (keeps : ∀ block, field (f block) = field block) (pool : BlockPool H) (x : Nat) :
    field ((pool.modify b f).blocks x) = field (pool.blocks x) := by
  by_cases same : x = b
  · subst same
    rw [modify_blocks_self, keeps]
  · rw [modify_blocks_of_ne same]

theorem modify_sameCache (b : Nat) (isNull : ∀ block, (f block).isNull = block.isNull)
    (blockHash : ∀ block, (f block).blockHash = block.blockHash) (pool : BlockPool H) :
    SameCache pool (pool.modify b f) :=
  ⟨⟨rfl, rfl, rfl, modify_field KVCacheBlock.isNull b isNull pool⟩,
    modify_field KVCacheBlock.blockHash b blockHash pool, rfl⟩

theorem modify_sameRefs (b : Nat) (isNull : ∀ block, (f block).isNull = block.isNull)
    (refCnt : ∀ block, (f block).refCnt = block.refCnt)
    (pinned : ∀ block, (f block).pinned = block.pinned) (pool : BlockPool H) :
    SameRefs pool (pool.modify b f) := by
  refine ⟨⟨rfl, rfl, rfl, modify_field KVCacheBlock.isNull b isNull pool⟩, ?_, rfl⟩
  have counts := funext (modify_field KVCacheBlock.refCnt b refCnt pool)
  have kept := funext (modify_field KVCacheBlock.pinned b pinned pool)
  rw [view, counts, kept]
  rfl

@[simp] theorem withCached_blocks (map : BlockHashToBlockMap H) (pool : BlockPool H) :
    (pool.withCached map).blocks = pool.blocks := rfl

@[simp] theorem withCached_cached (map : BlockHashToBlockMap H) (pool : BlockPool H) :
    (pool.withCached map).cachedBlockHashToBlock = map := rfl

theorem withQueue_sameCache (queue : FreeKVCacheBlockQueue) (pool : BlockPool H) :
    SameCache pool (pool.withQueue queue) :=
  ⟨⟨rfl, rfl, rfl, fun _ => rfl⟩, fun _ => rfl, rfl⟩

theorem withCached_sameRefs (map : BlockHashToBlockMap H) (pool : BlockPool H) :
    SameRefs pool (pool.withCached map) :=
  ⟨⟨rfl, rfl, rfl, fun _ => rfl⟩, rfl, rfl⟩

theorem incRef_sameCache (b : Nat) (pool : BlockPool H) : SameCache pool (pool.modify b .incRef) :=
  modify_sameCache b (f := .incRef) (fun _ => rfl) (fun _ => rfl) pool

/-! ## Taking references -/

theorem view_incRef (b : Nat) (pool : BlockPool H) :
    (pool.modify b .incRef).view =
      { pool.view with count := Function.update pool.view.count b (pool.view.count b + 1) } := by
  refine RefPool.ext ?_
    (funext (modify_field pinned b (f := .incRef) (fun _ => rfl) pool))
    rfl
  funext x
  by_cases same : x = b
  · subst same
    simp [view, incRef]
  · simp [view, modify_blocks_of_ne same, same]

theorem view_withQueue (queue : FreeKVCacheBlockQueue) (pool : BlockPool H) :
    (pool.withQueue queue).view = { pool.view with free := queue.blocks } := rfl

/-- `touch` takes a waiting block out of the queue and never raises. -/
theorem Ok.touchBlock (ok : pool.Ok holders) (valid : b < pool.numGpuBlocks) :
    ∃ pool', pool.touchBlock b = .ok pool' ∧ pool'.Ok (b ::ₘ holders) ∧
      SameCache pool pool' ∧ pool'.view.kept = pool.view.kept := by
  have held : ∀ x ∈ b ::ₘ holders, x < pool.numGpuBlocks := by
    intro x member
    rcases Multiset.mem_cons.mp member with rfl | member
    · exact valid
    · exact ok.held x member
  have waits : b ∈ pool.freeBlockQueue.blocks ↔
      ((pool.blocks b).refCnt = 0 && !(pool.blocks b).isNull && !(pool.blocks b).pinned) := by
    by_cases isNull : b = nullBlock
    · have absent : b ∉ pool.freeBlockQueue.blocks :=
        fun member => (ok.refs.within b member).1 isNull
      rw [isNull] at absent
      simp [absent, ok.cache.null, isNull]
    · have inQueue := ok.refs.free_iff b ⟨isNull, valid⟩
      simp only [view] at inQueue
      simp [inQueue, ok.cache.null, isNull]
  have same : ∀ queue, SameCache pool ((pool.modify b .incRef).withQueue queue) :=
    fun queue => (incRef_sameCache b pool).trans (withQueue_sameCache queue _)
  have refs := ok.refs.acquire b
  by_cases waiting : b ∈ pool.freeBlockQueue.blocks
  · refine ⟨_, ?_, ok.sameCache (same ⟨pool.freeBlockQueue.blocks.erase b,
      pool.freeBlockQueue.numFreeBlocks - 1⟩) ?_ ?_ held, same _, ?_⟩
    · rw [BlockPool.touchBlock, if_pos (waits.mp waiting), FreeKVCacheBlockQueue.remove,
        if_pos waiting]
      rfl
    · rw [view_withQueue, view_incRef]
      exact refs
    · have shorter := List.length_erase_of_mem waiting
      have positive := List.length_pos_of_mem waiting
      have counter := ok.numFree
      show pool.freeBlockQueue.numFreeBlocks - 1 =
        ((pool.freeBlockQueue.blocks.erase b).length : Int)
      omega
    · rw [view_withQueue, view_incRef]
  · refine ⟨_, ?_, ok.sameCache (same pool.freeBlockQueue) ?_ ok.numFree held, same _, ?_⟩
    · rw [BlockPool.touchBlock, if_neg (mt waits.mpr waiting)]
      rfl
    · rw [view_withQueue, view_incRef]
      have unchanged : pool.view.free.erase b = pool.freeBlockQueue.blocks :=
        List.erase_of_not_mem waiting
      rw [RefPool.acquire, unchanged] at refs
      exact refs
    · rw [view_withQueue, view_incRef]

theorem Ok.touchAll (bs : List Nat) :
    ∀ {pool : BlockPool H} {holders : Multiset Nat}, pool.Ok holders →
      (∀ b ∈ bs, b < pool.numGpuBlocks) →
        ∃ pool', bs.foldlM BlockPool.touchBlock pool = .ok pool' ∧
          pool'.Ok ((bs : Multiset Nat) + holders) ∧ SameCache pool pool' ∧
            pool'.view.kept = pool.view.kept := by
  induction bs with
  | nil =>
    intro pool holders ok _
    exact ⟨pool, rfl, by simpa using ok, .refl pool, rfl⟩
  | cons b bs ih =>
    intro pool holders ok valid
    obtain ⟨middle, first, okMiddle, sameMiddle, keptMiddle⟩ :=
      ok.touchBlock (valid b List.mem_cons_self)
    have validRest : ∀ x ∈ bs, x < middle.numGpuBlocks := by
      intro x member
      rw [sameMiddle.numGpuBlocks]
      exact valid x (List.mem_cons_of_mem _ member)
    obtain ⟨pool', rest, ok', same', kept'⟩ := ih okMiddle validRest
    refine ⟨pool', ?_, ?_, sameMiddle.trans same', kept'.trans keptMiddle⟩
    · rw [List.foldlM_cons, first]
      exact rest
    · rwa [Multiset.add_cons, ← Multiset.cons_add, Multiset.cons_coe] at ok'

/-! ## Giving references back -/

theorem blocks_decrement (bs : List Nat) :
    ∀ (pool : BlockPool H) (x : Nat),
      (bs.foldl (fun pool b => pool.modify b .decRef) pool).blocks x =
        { pool.blocks x with refCnt := (pool.blocks x).refCnt - bs.count x } := by
  induction bs with
  | nil => simp
  | cons b bs ih =>
    intro pool x
    rw [List.foldl_cons, ih]
    by_cases same : x = b
    · subst same
      rw [modify_blocks_self, List.count_cons_self]
      simp only [KVCacheBlock.decRef, KVCacheBlock.mk.injEq, and_true]
      omega
    · rw [modify_blocks_of_ne same, List.count_cons_of_ne (Ne.symm same)]

theorem decrement_config (bs : List Nat) :
    ∀ pool : BlockPool H,
      let decremented := bs.foldl (fun pool b => pool.modify b .decRef) pool
      decremented.numGpuBlocks = pool.numGpuBlocks ∧
        decremented.enableCaching = pool.enableCaching ∧
        decremented.hashBlockSize = pool.hashBlockSize ∧
        decremented.cachedBlockHashToBlock = pool.cachedBlockHashToBlock := by
  induction bs with
  | nil => exact fun _ => ⟨rfl, rfl, rfl, rfl⟩
  | cons b bs ih => exact fun pool => ih (pool.modify b _)

theorem freeBlocks_blocks (bs : List Nat) (pool : BlockPool H) (x : Nat) :
    (pool.freeBlocks bs).blocks x =
      { pool.blocks x with refCnt := (pool.blocks x).refCnt - bs.count x } :=
  blocks_decrement bs pool x

theorem freeBlocks_sameCache (bs : List Nat) (pool : BlockPool H) :
    SameCache pool (pool.freeBlocks bs) := by
  obtain ⟨numGpuBlocks, enableCaching, hashBlockSize, cached⟩ := decrement_config bs pool
  refine ⟨⟨numGpuBlocks, enableCaching, hashBlockSize, ?_⟩, ?_, cached⟩
  · intro b
    rw [freeBlocks_blocks]
  · intro b
    rw [freeBlocks_blocks]

theorem freeBlocks_kept (bs : List Nat) (pool : BlockPool H) :
    (pool.freeBlocks bs).view.kept = pool.view.kept := by
  funext b
  simp only [view, freeBlocks_blocks]

/-- `free_blocks` queues exactly the blocks that nobody holds any more and that are not
pinned. -/
theorem Ok.freeBlocks {bs : List Nat} (ok : pool.Ok ((bs : Multiset Nat) + holders))
    (once : (bs.filter fun b => b ≠ nullBlock).Nodup) : (pool.freeBlocks bs).Ok holders := by
  have valid : ∀ b ∈ bs, b < pool.numGpuBlocks :=
    fun b member => ok.held b (Multiset.mem_add.mpr (Or.inl member))
  have queued : (bs.filter fun b =>
      ((pool.freeBlocks bs).blocks b).refCnt = 0 && !((pool.freeBlocks bs).blocks b).isNull &&
        !((pool.freeBlocks bs).blocks b).pinned) =
      bs.filter fun b => Managed pool.numGpuBlocks b ∧
        pool.view.count b - bs.count b = 0 ∧ pool.view.kept b = false := by
    refine List.filter_congr fun b member => ?_
    have isManaged : Managed pool.numGpuBlocks b ↔ b ≠ nullBlock :=
      ⟨And.left, fun notNull => ⟨notNull, valid b member⟩⟩
    rw [Bool.eq_iff_iff]
    simp only [freeBlocks_blocks, ok.cache.null, view, isManaged, Bool.and_eq_true,
      decide_eq_true_eq, Bool.not_eq_true', decide_eq_false_iff_not]
    tauto
  have released : (pool.freeBlocks bs).view =
      pool.view.release (Managed pool.numGpuBlocks) bs := by
    refine RefPool.ext ?_ (freeBlocks_kept bs pool) ?_
    · funext b
      simp only [view, RefPool.release, freeBlocks_blocks]
    · exact congrArg (pool.freeBlockQueue.blocks ++ ·) queued
  refine ok.sameCache (freeBlocks_sameCache bs pool) ?_ ?_ ?_
  · rw [released]
    refine ok.refs.release (once.sublist ?_)
    refine List.monotone_filter_right bs fun b isManaged => ?_
    simp only [decide_eq_true_eq] at isManaged ⊢
    exact isManaged.1
  · exact FreeKVCacheBlockQueue.numFreeBlocks_appendN ok.numFree _
  · exact fun b member => ok.held b (Multiset.mem_add.mpr (Or.inr member))

/-! ## Pinning -/

theorem view_setPinned (value : Bool) (b : Nat) (pool : BlockPool H) :
    (pool.setPinned value b).view = pool.view.keep value b := by
  refine RefPool.ext
    (funext (modify_field refCnt b (f := .setPinned value) (fun _ => rfl) pool)) ?_ rfl
  · funext x
    by_cases same : x = b
    · subst same
      simp [view, setPinned, RefPool.keep, KVCacheBlock.setPinned]
    · simp [view, setPinned, RefPool.keep, modify_blocks_of_ne same, same]

theorem setPinned_sameCache (value : Bool) (b : Nat) (pool : BlockPool H) :
    SameCache pool (pool.setPinned value b) :=
  modify_sameCache b (f := .setPinned value) (fun _ => rfl) (fun _ => rfl) pool

theorem Ok.setPinned (ok : pool.Ok holders) (value : Bool) (inUse : b ∈ holders) :
    (pool.setPinned value b).Ok holders := by
  refine ok.sameCache (setPinned_sameCache value b pool) ?_ ok.numFree ok.held
  rw [view_setPinned]
  exact ok.refs.keep value fun _ => inUse

/-! ## The prefix cache -/

/-- The blocks of `bs` got one more reference each and may have lost their hashes; nothing else
changed. -/
structure Renewed (bs : List Nat) (pool pool' : BlockPool H) : Prop
    extends SameConfig pool pool' where
  others : ∀ x, x ∉ bs → pool'.blocks x = pool.blocks x
  refCnt : ∀ x, (pool'.blocks x).refCnt = (pool.blocks x).refCnt + bs.count x
  pinned : ∀ x, (pool'.blocks x).pinned = (pool.blocks x).pinned
  queue : pool'.freeBlockQueue = pool.freeBlockQueue

theorem Renewed.cons {bs : List Nat} (first : Renewed [b] pool pool')
    (rest : Renewed bs pool' pool'') : Renewed (b :: bs) pool pool'' := by
  refine ⟨first.toSameConfig.trans rest.toSameConfig, ?_, ?_,
    fun x => (rest.pinned x).trans (first.pinned x), rest.queue.trans first.queue⟩
  · intro x absent
    rw [List.mem_cons, not_or] at absent
    rw [rest.others x absent.2, first.others x (by simpa using absent.1)]
  · intro x
    rw [rest.refCnt, first.refCnt, List.count_cons, List.count_cons, List.count_nil]
    omega

/-- The blocks of `entries` got the hashes at their indices; no hash was lost. -/
structure Cached (groupId : Nat) (hashes : List (List H)) (entries : List (Nat × Nat))
    (pool pool' : BlockPool H) : Prop extends SameRefs pool pool' where
  grows : ∀ x key, (pool.blocks x).blockHash = some key → (pool'.blocks x).blockHash = some key
  hashed : ∀ entry ∈ entries, ∃ blockHash, hashes[entry.2]? = some blockHash ∧
    (pool'.blocks entry.1).blockHash = some ⟨blockHash, groupId⟩

theorem Cached.refl (groupId : Nat) (hashes : List (List H)) (pool : BlockPool H) :
    Cached groupId hashes [] pool pool :=
  ⟨.refl pool, fun _ _ isHashed => isHashed, fun _ member => (nomatch member)⟩

theorem Cached.cons {groupId : Nat} {hashes : List (List H)} {entry : Nat × Nat}
    {entries : List (Nat × Nat)} (first : Cached groupId hashes [entry] pool pool')
    (rest : Cached groupId hashes entries pool' pool'') :
    Cached groupId hashes (entry :: entries) pool pool'' := by
  refine ⟨first.toSameRefs.trans rest.toSameRefs,
    fun x key isHashed => rest.grows x key (first.grows x key isHashed), ?_⟩
  intro e member
  rcases List.mem_cons.mp member with rfl | member
  · obtain ⟨blockHash, found, isHashed⟩ := first.hashed e List.mem_cons_self
    exact ⟨blockHash, found, rest.grows _ _ isHashed⟩
  · exact rest.hashed e member

theorem groupBlockHashes_meets (pool : BlockPool H) (blockSize : Nat) (hashes : List H) :
    Safely
      (fun groupHashes => pool.groupBlockHashes blockSize hashes = .ok groupHashes)
      (pool.groupBlockHashes blockSize hashes) := by
  cases merged : pool.groupBlockHashes blockSize hashes with
  | ok groupHashes => exact rfl
  | error e =>
    unfold groupBlockHashes at merged
    split at merged
    · cases merged
    · split at merged
      · cases merged
        exact id
      · cases merged

theorem resetPrefixCache_blockHash
    (isHashed : (pool.resetPrefixCache.2.blocks b).blockHash = some key) :
    (pool.blocks b).blockHash = some key := by
  unfold BlockPool.resetPrefixCache at isHashed
  split at isHashed
  · exact isHashed
  · simp [resetHash] at isHashed

theorem Ok.resetPrefixCache (ok : pool.Ok holders) :
    pool.resetPrefixCache.2.Ok holders ∧ SameRefs pool pool.resetPrefixCache.2 := by
  unfold BlockPool.resetPrefixCache
  split
  · exact ⟨ok, .refl pool⟩
  · have same : SameRefs pool { pool with
        cachedBlockHashToBlock := .empty
        blocks := fun b => (pool.blocks b).resetHash } :=
      ⟨⟨rfl, rfl, rfl, fun _ => rfl⟩, rfl, rfl⟩
    refine ⟨ok.sameRefs same ⟨ok.cache.null, ?_, fun _ => List.nodup_nil, ?_⟩, same⟩
    · intro key b
      simp [BlockHashToBlockMap.empty, resetHash]
    · intro b key isHashed
      simp [resetHash] at isHashed

theorem init_ok {numGpuBlocks : Nat} (positive : 0 < numGpuBlocks) (enableCaching : Bool)
    (hashBlockSize : Nat) : (init numGpuBlocks enableCaching hashBlockSize : BlockPool H).Ok 0 := by
  refine ⟨positive, ⟨fun _ _ => rfl, ?_, List.nodup_range' .., ?_⟩, ?_,
    ⟨fun _ => rfl, ?_, ?_, ?_⟩, ?_⟩
  · intro b isManaged
    obtain ⟨notNull, valid⟩ := isManaged
    simp only [init, nullBlock] at notNull valid
    simp only [view, init, List.mem_range'_1, and_self, iff_true]
    omega
  · intro b member
    simp only [view, init, List.mem_range'_1] at member
    refine ⟨?_, ?_⟩
    · simp only [nullBlock]
      omega
    · simp only [init]
      omega
  · simp [init]
  · intro key b
    simp [init, BlockHashToBlockMap.empty]
  · exact fun _ => List.nodup_nil
  · intro b key isHashed
    simp [init] at isHashed
  · exact fun b member => absurd member (Multiset.notMem_zero b)

variable [DecidableEq H]

theorem maybeEvictCachedBlock_sameRefs (b : Nat) (pool : BlockPool H) :
    SameRefs pool (pool.maybeEvictCachedBlock b) := by
  unfold maybeEvictCachedBlock
  split
  · exact .refl pool
  · split
    · exact .refl pool
    · exact (modify_sameRefs b (f := .resetHash) (fun _ => rfl) (fun _ => rfl) (fun _ => rfl)
        pool).trans (withCached_sameRefs _ _)

/-- Eviction removes the hash of the block and its entry, and nothing else. -/
theorem CacheOk.maybeEvictCachedBlock (ok : pool.CacheOk) (b : Nat) :
    (pool.maybeEvictCachedBlock b).CacheOk ∧
      ((pool.maybeEvictCachedBlock b).blocks b).blockHash = none ∧
      ∀ x, x ≠ b → (pool.maybeEvictCachedBlock b).blocks x = pool.blocks x := by
  cases isHashed : (pool.blocks b).blockHash with
  | none =>
    have unchanged : pool.maybeEvictCachedBlock b = pool := by
      simp only [BlockPool.maybeEvictCachedBlock, isHashed]
    rw [unchanged]
    exact ⟨ok, isHashed, fun _ _ => rfl⟩
  | some key =>
    have member := (ok.mirror key b).mpr isHashed
    have evicts : pool.maybeEvictCachedBlock b =
        (pool.modify b .resetHash).withCached
          ⟨Function.update pool.cachedBlockHashToBlock.cache key
            ((pool.cachedBlockHashToBlock.cache key).erase b)⟩ := by
      simp only [BlockPool.maybeEvictCachedBlock, isHashed, BlockHashToBlockMap.pop,
        if_pos member]
    have others : ∀ x, x ≠ b → (pool.maybeEvictCachedBlock b).blocks x = pool.blocks x := by
      intro x different
      rw [evicts, withCached_blocks, modify_blocks_of_ne different]
    have cleared : ((pool.maybeEvictCachedBlock b).blocks b).blockHash = none := by
      rw [evicts, withCached_blocks, modify_blocks_self]
      rfl
    have map : ∀ k, (pool.maybeEvictCachedBlock b).cachedBlockHashToBlock.cache k =
        if k = key then (pool.cachedBlockHashToBlock.cache key).erase b
        else pool.cachedBlockHashToBlock.cache k := by
      intro k
      rw [evicts, withCached_cached]
      exact Function.update_apply ..
    refine ⟨⟨?_, ?_, ?_, ?_⟩, cleared, others⟩
    · intro x
      rw [(maybeEvictCachedBlock_sameRefs b pool).isNull]
      exact ok.null x
    · intro k x
      rw [map]
      by_cases evicted : x = b
      · subst evicted
        rw [cleared]
        by_cases same : k = key
        · rw [if_pos same, (ok.distinct key).mem_erase_iff]
          simp
        · rw [if_neg same, ok.mirror, isHashed]
          simp [Ne.symm same]
      · rw [others x evicted]
        by_cases same : k = key
        · rw [if_pos same, (ok.distinct key).mem_erase_iff, same, ok.mirror]
          simp [evicted]
        · rw [if_neg same, ok.mirror]
    · intro k
      rw [map]
      split
      · exact (ok.distinct key).erase b
      · exact ok.distinct k
    · intro x k stillHashed
      by_cases evicted : x = b
      · rw [evicted, cleared] at stillHashed
        cases stillHashed
      · rw [others x evicted] at stillHashed
        rw [(maybeEvictCachedBlock_sameRefs b pool).numGpuBlocks]
        exact ok.hashed x k stillHashed

/-! ## Handing out blocks -/

theorem takeNewBlock_renewed (cache : pool.CacheOk) (unused : (pool.blocks b).refCnt = 0) :
    ∃ pool', pool.takeNewBlock b = .ok pool' ∧ pool'.CacheOk ∧ Renewed [b] pool pool' := by
  obtain ⟨evicted, isEvicted, evictedCache, sameRefs, others⟩ : ∃ evicted : BlockPool H,
      (if pool.enableCaching && !(pool.blocks b).pinned then pool.maybeEvictCachedBlock b
        else pool) = evicted ∧ evicted.CacheOk ∧ SameRefs pool evicted ∧
        ∀ x, x ≠ b → evicted.blocks x = pool.blocks x := by
    split
    · obtain ⟨cache', _, others⟩ := cache.maybeEvictCachedBlock b
      exact ⟨_, rfl, cache', maybeEvictCachedBlock_sameRefs b pool, others⟩
    · exact ⟨pool, rfl, cache, .refl pool, fun _ _ => rfl⟩
  have counts : ∀ x, (evicted.blocks x).refCnt = (pool.blocks x).refCnt :=
    fun x => congrFun (congrArg RefPool.count sameRefs.view) x
  have flags : ∀ x, (evicted.blocks x).pinned = (pool.blocks x).pinned :=
    fun x => congrFun (congrArg RefPool.kept sameRefs.view) x
  have taken := incRef_sameCache b evicted
  refine ⟨evicted.modify b .incRef, ?_, evictedCache.same taken,
    sameRefs.toSameConfig.trans taken.toSameConfig, ?_, ?_, ?_, sameRefs.queue⟩
  · have stillUnused : ¬ (evicted.blocks b).refCnt ≠ 0 := by
      rw [counts]
      exact not_not.mpr unused
    rw [takeNewBlock, isEvicted]
    exact if_neg stillUnused
  · intro x absent
    have different : x ≠ b := by simpa using absent
    rw [modify_blocks_of_ne different, others x different]
  · intro x
    by_cases same : x = b
    · subst same
      rw [modify_blocks_self, List.count_singleton_self]
      simp [incRef, counts]
    · rw [modify_blocks_of_ne same, counts, List.count_singleton,
        if_neg (by simpa using Ne.symm same)]
      simp
  · intro x
    rw [modify_field pinned b (f := .incRef) (fun _ => rfl), flags]

theorem takeNewBlocks_renewed (bs : List Nat) :
    ∀ pool : BlockPool H, pool.CacheOk → bs.Nodup →
      (∀ b ∈ bs, (pool.blocks b).refCnt = 0) →
        ∃ pool', bs.foldlM takeNewBlock pool = .ok pool' ∧ pool'.CacheOk ∧
          Renewed bs pool pool' := by
  induction bs with
  | nil =>
    intro pool cache _ _
    exact ⟨pool, rfl, cache, .refl pool, fun _ _ => rfl, fun x => by simp, fun _ => rfl, rfl⟩
  | cons b bs ih =>
    intro pool cache distinct unused
    rw [List.nodup_cons] at distinct
    obtain ⟨middle, first, cacheMiddle, renewed⟩ :=
      takeNewBlock_renewed cache (unused b List.mem_cons_self)
    have unusedRest : ∀ x ∈ bs, (middle.blocks x).refCnt = 0 := by
      intro x member
      have different : x ∉ [b] := by
        rintro (_ | ⟨_, ⟨⟩⟩)
        exact distinct.1 member
      rw [renewed.others x different]
      exact unused x (List.mem_cons_of_mem _ member)
    obtain ⟨pool', rest, cache', renewed'⟩ := ih middle cacheMiddle distinct.2 unusedRest
    refine ⟨pool', ?_, cache', renewed.cons renewed'⟩
    rw [List.foldlM_cons, first]
    exact rest

/-- `get_new_blocks` hands out the first waiting blocks; its assertion does not fail, and the
blocks it returns are neither referenced nor pinned. -/
theorem Ok.getNewBlocks (ok : pool.Ok holders) {n : Nat} (enough : n ≤ pool.getNumFreeBlocks) :
    ∃ pool', pool.getNewBlocks n = .ok (pool.freeBlockQueue.blocks.take n, pool') ∧
      pool'.Ok ((pool.freeBlockQueue.blocks.take n : Multiset Nat) + holders) ∧
      Renewed (pool.freeBlockQueue.blocks.take n)
        (pool.withQueue ⟨pool.freeBlockQueue.blocks.drop n, pool.freeBlockQueue.numFreeBlocks - n⟩)
        pool' := by
  have counter := ok.numFree
  have short : n ≤ pool.freeBlockQueue.blocks.length := by
    have available : (n : Int) ≤ pool.freeBlockQueue.numFreeBlocks := enough
    omega
  have pops : pool.freeBlockQueue.popleftN n =
      .ok (pool.freeBlockQueue.blocks.take n,
        ⟨pool.freeBlockQueue.blocks.drop n, pool.freeBlockQueue.numFreeBlocks - n⟩) := by
    unfold FreeKVCacheBlockQueue.popleftN
    by_cases none : n = 0
    · subst none
      simp
    · rw [if_neg none, if_neg (by omega), if_neg (by omega)]
  have unused : ∀ b ∈ pool.freeBlockQueue.blocks.take n, (pool.blocks b).refCnt = 0 :=
    fun b member => (ok.refs.of_mem_free (List.mem_of_mem_take member)).1
  have distinct : (pool.freeBlockQueue.blocks.take n).Nodup :=
    ok.refs.nodup.sublist (List.take_sublist n _)
  obtain ⟨pool', taken, cache', renewed⟩ := takeNewBlocks_renewed
    (pool.freeBlockQueue.blocks.take n)
    (pool.withQueue ⟨pool.freeBlockQueue.blocks.drop n, pool.freeBlockQueue.numFreeBlocks - n⟩)
    (ok.cache.same (withQueue_sameCache _ pool)) distinct unused
  have sameView : pool'.view = pool.view.acquireAll (pool.freeBlockQueue.blocks.take n) := by
    refine RefPool.ext ?_ ?_ ?_
    · funext x
      rw [RefPool.acquireAll_count]
      exact renewed.refCnt x
    · rw [RefPool.acquireAll_kept]
      exact funext renewed.pinned
    · have drops := RefPool.acquireAll_take_free n pool.view
      exact (congrArg FreeKVCacheBlockQueue.blocks renewed.queue).trans drops.symm
  refine ⟨pool', ?_, ⟨renewed.numGpuBlocks ▸ ok.positive, ?_, ?_, cache', ?_⟩, renewed⟩
  · rw [BlockPool.getNewBlocks, if_neg (Int.not_lt.mpr enough), pops]
    simp only [bind, Except.bind, taken]
    rfl
  · rw [sameView, renewed.numGpuBlocks]
    exact ok.refs.acquireAll _
  · rw [renewed.queue]
    simp only [withQueue, List.length_drop]
    omega
  · rw [renewed.numGpuBlocks]
    intro b member
    rcases Multiset.mem_add.mp member with isNew | member
    · exact (ok.refs.within b (List.mem_of_mem_take isNew)).2
    · exact ok.held b member

/-- What `get_new_blocks` returns was waiting: neither referenced nor pinned, and in no
table.  It raises only when there are not enough free blocks. -/
theorem Ok.getNewBlocks_meets (ok : pool.Ok holders) (n : Nat) :
    Meets (fun e => e = .notEnoughFreeBlocks)
      (fun (ret, pool') =>
        pool'.Ok ((ret : Multiset Nat) + holders) ∧ SameConfig pool pool' ∧
          pool'.view.kept = pool.view.kept ∧ ret.Nodup ∧
          (∀ b ∈ ret, (pool.blocks b).refCnt = 0 ∧ (pool.blocks b).pinned = false ∧
            b ∉ holders ∧ b ≠ nullBlock) ∧
          ∀ x, x ∉ ret → pool'.blocks x = pool.blocks x)
      (pool.getNewBlocks n) := by
  by_cases enough : n ≤ pool.getNumFreeBlocks
  · obtain ⟨pool', returns, ok', renewed⟩ := ok.getNewBlocks enough
    rw [returns]
    refine ⟨ok', (withQueue_sameCache _ pool).toSameConfig.trans renewed.toSameConfig,
      funext renewed.pinned, ok.refs.nodup.sublist (List.take_sublist n _), ?_, renewed.others⟩
    intro b member
    have waiting := List.mem_of_mem_take member
    obtain ⟨unheld, unkept, notHeld⟩ := ok.refs.of_mem_free waiting
    exact ⟨unheld, unkept, notHeld, (ok.refs.within b waiting).1⟩
  · rw [BlockPool.getNewBlocks, if_pos (Int.not_le.mp enough)]
    exact rfl

theorem takeNewBlocks_unhashed (bs : List Nat) :
    ∀ pool pool' : BlockPool H, pool.CacheOk → pool.enableCaching = true → bs.Nodup →
      (∀ b ∈ bs, (pool.blocks b).refCnt = 0 ∧ (pool.blocks b).pinned = false) →
        bs.foldlM takeNewBlock pool = .ok pool' → ∀ b ∈ bs, (pool'.blocks b).blockHash = none := by
  induction bs with
  | nil => exact fun _ _ _ _ _ _ _ _ member => absurd member List.not_mem_nil
  | cons b bs ih =>
    intro pool pool' cache caching distinct unused taken x member
    obtain ⟨notLater, distinctRest⟩ := List.nodup_cons.mp distinct
    obtain ⟨noRefs, unpinned⟩ := unused b List.mem_cons_self
    obtain ⟨middle, first, cacheMiddle, renewed⟩ := takeNewBlock_renewed cache noRefs
    rw [List.foldlM_cons, first] at taken
    have others : ∀ y ∈ bs, middle.blocks y = pool.blocks y := by
      intro y isLater
      refine renewed.others y fun isB => notLater ?_
      rw [List.mem_singleton] at isB
      exact isB ▸ isLater
    rcases List.mem_cons.mp member with rfl | isLater
    · have evicted : (middle.blocks x).blockHash = none := by
        simp only [takeNewBlock, caching, unpinned, Bool.not_false, Bool.and_true, if_true]
          at first
        split at first
        · cases first
        · cases first
          rw [modify_blocks_self]
          exact (cache.maybeEvictCachedBlock x).2.1
      have unused' : ∀ y ∈ bs, (middle.blocks y).refCnt = 0 := by
        intro y isLater
        rw [others y isLater]
        exact (unused y (List.mem_cons_of_mem _ isLater)).1
      obtain ⟨last, rest, -, renewedRest⟩ :=
        takeNewBlocks_renewed bs middle cacheMiddle distinctRest unused'
      obtain rfl := Except.ok.inj (rest.symm.trans taken)
      rw [renewedRest.others x notLater]
      exact evicted
    · refine ih middle pool' cacheMiddle (renewed.enableCaching.trans caching) distinctRest ?_ taken
        x isLater
      intro y isLater
      rw [others y isLater]
      exact unused y (List.mem_cons_of_mem _ isLater)

/-- With caching, the blocks that `get_new_blocks` returns carry no hash. -/
theorem Ok.getNewBlocks_unhashed (ok : pool.Ok holders) (caching : pool.enableCaching = true)
    {n : Nat} {ret : List Nat} (returns : pool.getNewBlocks n = .ok (ret, pool')) :
    ∀ b ∈ ret, (pool'.blocks b).blockHash = none := by
  by_cases enough : n ≤ pool.getNumFreeBlocks
  · obtain ⟨last, isRet, -, -⟩ := ok.getNewBlocks enough
    obtain ⟨rfl, rfl⟩ := Prod.mk.inj (Except.ok.inj (isRet.symm.trans returns))
    rw [BlockPool.getNewBlocks, if_neg (Int.not_lt.mpr enough)] at returns
    obtain ⟨⟨popped, queue⟩, pops, rest⟩ := bind_eq_ok.mp returns
    obtain ⟨taken, takes, finish⟩ := bind_eq_ok.mp rest
    obtain ⟨rfl, rfl⟩ := Prod.mk.inj (Except.ok.inj finish)
    refine takeNewBlocks_unhashed _ _ _ (ok.cache.same (withQueue_sameCache queue pool)) caching
      (ok.refs.nodup.sublist (List.take_sublist n _)) ?_ takes
    intro b member
    obtain ⟨unheld, unkept, -⟩ := ok.refs.of_mem_free (List.mem_of_mem_take member)
    exact ⟨unheld, unkept⟩
  · rw [BlockPool.getNewBlocks, if_pos (Int.not_le.mp enough)] at returns
    cases returns

/-! ## Caching full blocks -/

theorem CacheOk.cacheBlock (ok : pool.CacheOk) (groupId : Nat) (hashes : List (List H))
    {entry : Nat × Nat} (valid : entry.1 < pool.numGpuBlocks) :
    Safely
      (fun pool' => pool'.CacheOk ∧ Cached groupId hashes [entry] pool pool')
      (pool.cacheBlock groupId hashes entry) := by
  unfold BlockPool.cacheBlock
  split
  · exact id
  · rename_i unhashed
    have isNone : (pool.blocks entry.1).blockHash = none := not_not.mp unhashed
    split
    · exact id
    · rename_i blockHash found
      have refs : SameRefs pool (pool.modify entry.1 (.setHash ⟨blockHash, groupId⟩)) :=
        modify_sameRefs entry.1 (f := .setHash ⟨blockHash, groupId⟩) (fun _ => rfl)
          (fun _ => rfl) (fun _ => rfl) pool
      have self : ((pool.modify entry.1 (.setHash ⟨blockHash, groupId⟩)).blocks entry.1).blockHash =
          some ⟨blockHash, groupId⟩ := by
        rw [modify_blocks_self]
        rfl
      have absent : ∀ key, entry.1 ∉ pool.cachedBlockHashToBlock.cache key := by
        intro key member
        rw [(ok.mirror key entry.1), isNone] at member
        cases member
      refine ⟨⟨fun x => (refs.isNull x).trans (ok.null x), ?_, ?_, ?_⟩,
        refs.trans (withCached_sameRefs _ _), ?_, ?_⟩
      · intro key x
        simp only [withCached_cached, withCached_blocks, BlockHashToBlockMap.insert,
          if_neg (absent _), Function.update_apply]
        by_cases isEntry : x = entry.1
        · rw [isEntry, self]
          by_cases same : key = ⟨blockHash, groupId⟩
          · simp [same]
          · simp [same, absent key, Ne.symm same]
        · rw [modify_blocks_of_ne isEntry]
          by_cases same : key = ⟨blockHash, groupId⟩
          · rw [if_pos same, same, ← ok.mirror]
            simp [isEntry]
          · rw [if_neg same, ok.mirror]
      · intro key
        simp only [withCached_cached, BlockHashToBlockMap.insert, if_neg (absent _),
          Function.update_apply]
        split
        · refine List.Nodup.append (ok.distinct _) (List.nodup_singleton _) ?_
          intro x member isEntry
          rw [List.mem_singleton] at isEntry
          exact absent _ (isEntry ▸ member)
        · exact ok.distinct key
      · intro x key isHashed
        rw [withCached_blocks] at isHashed
        by_cases isEntry : x = entry.1
        · rw [isEntry]
          exact valid
        · rw [modify_blocks_of_ne isEntry] at isHashed
          exact ok.hashed x key isHashed
      · intro x key isHashed
        have different : x ≠ entry.1 := by
          rintro rfl
          rw [isNone] at isHashed
          cases isHashed
        rw [withCached_blocks, modify_blocks_of_ne different]
        exact isHashed
      · intro e member
        rw [List.mem_singleton] at member
        subst member
        exact ⟨blockHash, found, self⟩

theorem CacheOk.cacheBlocks {groupId : Nat} {hashes : List (List H)} (entries : List (Nat × Nat)) :
    ∀ {pool : BlockPool H}, pool.CacheOk → (∀ entry ∈ entries, entry.1 < pool.numGpuBlocks) →
      Safely
        (fun pool' => pool'.CacheOk ∧ Cached groupId hashes entries pool pool')
        (entries.foldlM (BlockPool.cacheBlock groupId hashes) pool) := by
  induction entries with
  | nil =>
    intro pool ok _
    exact ⟨ok, .refl groupId hashes pool⟩
  | cons entry entries ih =>
    intro pool ok valid
    rw [List.foldlM_cons]
    refine (ok.cacheBlock groupId hashes (valid entry List.mem_cons_self)).bind ?_
    rintro middle ⟨okMiddle, cachedFirst⟩
    have validRest : ∀ e ∈ entries, e.1 < middle.numGpuBlocks := by
      intro e member
      rw [cachedFirst.numGpuBlocks]
      exact valid e (List.mem_cons_of_mem _ member)
    exact (ih okMiddle validRest).mono fun _ ⟨ok', cachedRest⟩ =>
      ⟨ok', cachedFirst.cons cachedRest⟩

/-- `cache_full_blocks` hashes the blocks at the positions from `numCachedBlocks` on with the
hashes at the same positions, and loses no hash. -/
theorem Ok.cacheFullBlocks (ok : pool.Ok holders) {hashes : List H} {blocks : List Nat}
    {numCached numFull blockSize groupId : Nat} (inUse : ∀ b ∈ blocks, b ∈ holders) :
    Safely
      (fun pool' => pool'.Ok holders ∧ SameRefs pool pool' ∧
        (∀ x key, (pool.blocks x).blockHash = some key → (pool'.blocks x).blockHash = some key) ∧
        ∀ j b, numCached ≤ j → j < numFull → blocks[j]? = some b →
          ∃ groupHashes blockHash, pool.groupBlockHashes blockSize hashes = .ok groupHashes ∧
            groupHashes[j]? = some blockHash ∧
            (pool'.blocks b).blockHash = some ⟨blockHash, groupId⟩)
      (pool.cacheFullBlocks hashes blocks numCached numFull blockSize groupId) := by
  unfold BlockPool.cacheFullBlocks
  split
  · refine ⟨ok, .refl pool, fun _ _ isHashed => isHashed, ?_⟩
    intro j b above below
    omega
  · split
    · exact id
    · refine (groupBlockHashes_meets pool blockSize hashes).bind fun groupHashes merged => ?_
      have member : ∀ entry ∈ ((blocks.take numFull).drop numCached).zipIdx, entry.1 ∈ blocks :=
        fun entry member => List.mem_of_mem_take (List.mem_of_mem_drop
          (List.fst_mem_of_mem_zipIdx member))
      refine (ok.cache.cacheBlocks _
        (fun entry isEntry => ok.held _ (inUse _ (member entry isEntry)))).mono ?_
      rintro pool' ⟨cache', cached⟩
      refine ⟨ok.sameRefs cached.toSameRefs cache', cached.toSameRefs, cached.grows, ?_⟩
      intro j b above below atJ
      have position : numCached + (j - numCached) = j := by omega
      have isEntry : (b, j - numCached) ∈ ((blocks.take numFull).drop numCached).zipIdx := by
        rw [List.mem_zipIdx_iff_getElem?, List.getElem?_drop, List.getElem?_take, position,
          if_pos below]
        exact atJ
      obtain ⟨blockHash, found, isHashed⟩ := cached.hashed _ isEntry
      rw [List.getElem?_drop, position] at found
      exact ⟨groupHashes, blockHash, merged, found, isHashed⟩

theorem cacheBlock_origin (groupId : Nat) (hashes : List (List H)) (entry : Nat × Nat)
    (pool : BlockPool H) :
    Gives (fun pool' => ∀ b key, (pool'.blocks b).blockHash = some key →
        (pool.blocks b).blockHash = some key ∨
          b = entry.1 ∧ key.groupId = groupId ∧ hashes[entry.2]? = some key.blockHash)
      (pool.cacheBlock groupId hashes entry) := by
  unfold BlockPool.cacheBlock
  split
  · exact trivial
  · split
    · exact trivial
    · rename_i blockHash found
      intro b key isHashed
      rw [withCached_blocks] at isHashed
      by_cases isEntry : b = entry.1
      · subst isEntry
        rw [modify_blocks_self] at isHashed
        cases isHashed
        exact Or.inr ⟨rfl, rfl, found⟩
      · rw [modify_blocks_of_ne isEntry] at isHashed
        exact Or.inl isHashed

/-- A hash that `cache_full_blocks` sets is that of the position at which the block stands, among
the full blocks. -/
theorem cacheFullBlocks_origin (hashes : List H) (blocks : List Nat)
    (numCached numFull blockSize groupId : Nat) (pool : BlockPool H) :
    Gives (fun pool' => ∀ b key, (pool'.blocks b).blockHash = some key →
        (pool.blocks b).blockHash = some key ∨
          key.groupId = groupId ∧ ∃ groupHashes, ∃ j : Nat,
            pool.groupBlockHashes blockSize hashes = .ok groupHashes ∧
              groupHashes[j]? = some key.blockHash ∧ blocks[j]? = some b ∧ j < numFull)
      (pool.cacheFullBlocks hashes blocks numCached numFull blockSize groupId) := by
  unfold BlockPool.cacheFullBlocks
  split
  · exact fun _ _ => Or.inl
  · split
    · exact trivial
    · refine ((groupBlockHashes_meets pool blockSize hashes).weaken fun _ _ => trivial).bind
        fun groupHashes merged => ?_
      refine Meets.foldlM _ pool ?_ (fun _ _ => Or.inl)
      intro entry isEntry before held
      refine (cacheBlock_origin groupId _ entry before).mono fun after origin b key isHashed => ?_
      rcases origin b key isHashed with wasHashed | ⟨rfl, sameGroup, found⟩
      · exact held b key wasHashed
      · rw [List.mem_zipIdx_iff_getElem?, List.getElem?_drop, List.getElem?_take] at isEntry
        rw [List.getElem?_drop] at found
        split at isEntry
        · rename_i isFull
          exact Or.inr ⟨sameGroup, groupHashes, numCached + entry.2, merged, found, isEntry, isFull⟩
        · cases isEntry

/-! ## Eviction by id and reset -/

theorem Ok.evictBlocks (ok : pool.Ok holders) (blockIds : List Nat) :
    Safely (fun pool' => pool'.Ok holders ∧ SameRefs pool pool')
      (pool.evictBlocks blockIds) := by
  refine Meets.foldlM blockIds pool ?_ ⟨ok, .refl pool⟩
  rintro b - before ⟨okBefore, same⟩
  split
  · have sameStep := maybeEvictCachedBlock_sameRefs b before
    exact ⟨okBefore.sameRefs sameStep (okBefore.cache.maybeEvictCachedBlock b).1,
      same.trans sameStep⟩
  · exact id

theorem maybeEvictCachedBlock_blockHash {b x : Nat}
    (isHashed : ((pool.maybeEvictCachedBlock b).blocks x).blockHash = some key) :
    (pool.blocks x).blockHash = some key := by
  unfold maybeEvictCachedBlock at isHashed
  split at isHashed
  · exact isHashed
  · split at isHashed
    · exact isHashed
    · by_cases same : x = b
      · subst same
        simp [withCached, resetHash] at isHashed
      · rwa [withCached, modify_blocks_of_ne same] at isHashed

theorem evictBlocks_blockHash (blockIds : List Nat) (pool : BlockPool H) :
    Gives (fun pool' => ∀ b key, (pool'.blocks b).blockHash = some key →
      (pool.blocks b).blockHash = some key) (pool.evictBlocks blockIds) := by
  refine Meets.foldlM blockIds pool ?_ fun _ _ => id
  rintro x - before kept
  split
  · exact fun b key isHashed => kept b key (maybeEvictCachedBlock_blockHash isHashed)
  · exact trivial

end BlockPool

end Kalypso.Engine
