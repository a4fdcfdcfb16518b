import Kalypso.Lib.RefPool
import Kalypso.Lib.Raise

/-!
# The pool of KV-cache blocks

`BlockPool` owns the metadata of all blocks: a reference count, the pinned flag and the hash
under which the block is cached.  The free queue holds the blocks that can be handed out, in
eviction order; the prefix-cache map leads from a hash to the blocks that carry it.

A block is its id.  Block 0 is the null block, a placeholder whose reference count is not
maintained.  The free queue is the list that its doubly linked structure represents, together
with its separate counter.
-/

set_option autoImplicit false

namespace Kalypso.Engine

open Kalypso.Lib

inductive EngineError where
  /-- `ValueError`: cannot get the requested number of free blocks from the pool -/
  | notEnoughFreeBlocks
  /-- the counter of the free list is out of sync with the list -/
  | freeListOutOfSync
  /-- `RuntimeError`: `remove()` called on a block that is not in the free list -/
  | removeInvalidBlock
  /-- `assert block.ref_cnt == 0` of `get_new_blocks` -/
  | newBlockReferenced
  /-- `assert blk.block_hash is None` of `cache_full_blocks` -/
  | blockAlreadyHashed
  /-- `assert len(request.block_hashes) >= num_full_blocks` -/
  | tooFewBlockHashes
  /-- a block size that is not a multiple of `hash_block_size` -/
  | blockSizeNotMultiple
  /-- `assert block_id < len(self.blocks)` of `evict_blocks` -/
  | invalidBlockId
  /-- `IndexError` -/
  | indexOutOfRange
  /-- `ValueError`: `num_new_tokens` must be greater than 0 -/
  | noNewTokens
  /-- computed blocks given although prefix caching is disabled -/
  | hitsWithoutCaching
  /-- `assert len(req_blocks) == 0` for a new request -/
  | newRequestHasBlocks
  /-- `assert len(new_computed_blocks) == 0` for a running request -/
  | runningRequestHasHits
  /-- an attention type that does not support the operation or the configuration -/
  | unsupportedAttention
  /-- `ValueError`: neither sampling nor pooling parameters -/
  | noParams
  /-- `RuntimeError`: invalid request status -/
  | invalidRequestStatus
  /-- an assertion of the scheduler -/
  | schedulerAssertion
  /-- `KeyError` -/
  | missingKey
  deriving DecidableEq, Repr

/-- The errors that mean that the free queue and the reference counts disagree. -/
def EngineError.IsPoolFault : EngineError → Prop
  | .freeListOutOfSync | .removeInvalidBlock | .newBlockReferenced => True
  | _ => False

/-- A block hash packed with the id of its KV-cache group.  The hash of a block that spans
several hash blocks is the concatenation of theirs. -/
structure BlockHashWithGroupId (H : Type) where
  blockHash : List H
  groupId : Nat
  deriving DecidableEq

structure KVCacheBlock (H : Type) where
  refCnt : Int
  pinned : Bool
  blockHash : Option (BlockHashWithGroupId H)
  isNull : Bool

namespace KVCacheBlock

variable {H : Type}

def incRef (block : KVCacheBlock H) : KVCacheBlock H := { block with refCnt := block.refCnt + 1 }

def decRef (block : KVCacheBlock H) : KVCacheBlock H := { block with refCnt := block.refCnt - 1 }

def setPinned (value : Bool) (block : KVCacheBlock H) : KVCacheBlock H :=
  { block with pinned := value }

def setHash (key : BlockHashWithGroupId H) (block : KVCacheBlock H) : KVCacheBlock H :=
  { block with blockHash := some key }

def resetHash (block : KVCacheBlock H) : KVCacheBlock H := { block with blockHash := none }

end KVCacheBlock

structure FreeKVCacheBlockQueue where
  blocks : List Nat
  numFreeBlocks : Int
  deriving DecidableEq

namespace FreeKVCacheBlockQueue

def popleftN (n : Nat) (queue : FreeKVCacheBlockQueue) :
    Except EngineError (List Nat × FreeKVCacheBlockQueue) :=
  if n = 0 then .ok ([], queue)
  else if queue.numFreeBlocks < n then .error .freeListOutOfSync
  else if queue.blocks.length < n then .error .freeListOutOfSync
  else .ok (queue.blocks.take n, ⟨queue.blocks.drop n, queue.numFreeBlocks - n⟩)

def remove (b : Nat) (queue : FreeKVCacheBlockQueue) : Except EngineError FreeKVCacheBlockQueue :=
  if b ∈ queue.blocks then .ok ⟨queue.blocks.erase b, queue.numFreeBlocks - 1⟩
  else .error .removeInvalidBlock

def appendN (bs : List Nat) (queue : FreeKVCacheBlockQueue) : FreeKVCacheBlockQueue :=
  ⟨queue.blocks ++ bs, queue.numFreeBlocks + bs.length⟩

end FreeKVCacheBlockQueue

/-- `BlockHashToBlockMap`: the blocks cached under a key, in the order of insertion. -/
structure BlockHashToBlockMap (H : Type) where
  cache : BlockHashWithGroupId H → List Nat

namespace BlockHashToBlockMap

variable {H : Type} [DecidableEq H]

def empty : BlockHashToBlockMap H := ⟨fun _ => []⟩

def getOneBlock (map : BlockHashToBlockMap H) (key : BlockHashWithGroupId H) : Option Nat :=
  (map.cache key).head?

def insert (key : BlockHashWithGroupId H) (b : Nat) (map : BlockHashToBlockMap H) :
    BlockHashToBlockMap H :=
  ⟨Function.update map.cache key
    (if b ∈ map.cache key then map.cache key else map.cache key ++ [b])⟩

/-- The map without the block, or nothing if the block is not cached under the key. -/
def pop (key : BlockHashWithGroupId H) (b : Nat) (map : BlockHashToBlockMap H) :
    Option (BlockHashToBlockMap H) :=
  if b ∈ map.cache key then some ⟨Function.update map.cache key ((map.cache key).erase b)⟩
  else none

end BlockHashToBlockMap

structure BlockPool (H : Type) where
  numGpuBlocks : Nat
  enableCaching : Bool
  hashBlockSize : Nat
  blocks : Nat → KVCacheBlock H
  freeBlockQueue : FreeKVCacheBlockQueue
  cachedBlockHashToBlock : BlockHashToBlockMap H

def nullBlock : Nat := 0

/-- `BlockHashListWithBlockSize`: every `scale` consecutive hashes form one. -/
def mergeBlockHashes {H : Type} (scale : Nat) (hashes : List H) : List (List H) :=
  (List.range (hashes.length / scale)).map fun i => (hashes.drop (i * scale)).take scale

namespace BlockPool

variable {H : Type} [DecidableEq H]

section

omit [DecidableEq H]

def init (numGpuBlocks : Nat) (enableCaching : Bool) (hashBlockSize : Nat) : BlockPool H where
  numGpuBlocks := numGpuBlocks
  enableCaching := enableCaching
  hashBlockSize := hashBlockSize
  blocks := fun b => ⟨0, false, none, b = nullBlock⟩
  freeBlockQueue := ⟨List.range' 1 (numGpuBlocks - 1), (numGpuBlocks - 1 : Nat)⟩
  cachedBlockHashToBlock := .empty

def modify (b : Nat) (f : KVCacheBlock H → KVCacheBlock H) (pool : BlockPool H) : BlockPool H :=
  { pool with blocks := Function.update pool.blocks b (f (pool.blocks b)) }

def withQueue (queue : FreeKVCacheBlockQueue) (pool : BlockPool H) : BlockPool H :=
  { pool with freeBlockQueue := queue }

def withCached (map : BlockHashToBlockMap H) (pool : BlockPool H) : BlockPool H :=
  { pool with cachedBlockHashToBlock := map }

def getNumFreeBlocks (pool : BlockPool H) : Int := pool.freeBlockQueue.numFreeBlocks

/-- `get_cached_block`: the first cached block for each group, if every group has one. -/
def getCachedBlock (pool : BlockPool H) (blockHash : List H) (groupIds : List Nat) :
    Option (List Nat) :=
  groupIds.mapM fun groupId => pool.cachedBlockHashToBlock.getOneBlock ⟨blockHash, groupId⟩

def groupBlockHashes (pool : BlockPool H) (blockSize : Nat) (hashes : List H) :
    Except EngineError (List (List H)) :=
  if blockSize = pool.hashBlockSize then .ok (hashes.map fun hash => [hash])
  else if blockSize % pool.hashBlockSize ≠ 0 then .error .blockSizeNotMultiple
  else .ok (mergeBlockHashes (blockSize / pool.hashBlockSize) hashes)

def cacheBlock (groupId : Nat) (newBlockHashes : List (List H)) (pool : BlockPool H)
    (entry : Nat × Nat) : Except EngineError (BlockPool H) :=
  if (pool.blocks entry.1).blockHash ≠ none then .error .blockAlreadyHashed
  else
    match newBlockHashes[entry.2]? with
    | none => .error .indexOutOfRange
    | some blockHash =>
        let key : BlockHashWithGroupId H := ⟨blockHash, groupId⟩
        .ok ((pool.modify entry.1 (.setHash key)).withCached
          (pool.cachedBlockHashToBlock.insert key entry.1))

def cacheFullBlocks (hashes : List H) (blocks : List Nat) (numCachedBlocks numFullBlocks : Nat)
    (blockSize groupId : Nat) (pool : BlockPool H) : Except EngineError (BlockPool H) :=
  if numFullBlocks ≤ numCachedBlocks then .ok pool
  else if hashes.length < numFullBlocks then .error .tooFewBlockHashes
  else do
    let blockHashes ← pool.groupBlockHashes blockSize hashes
    let newFullBlocks := (blocks.take numFullBlocks).drop numCachedBlocks
    newFullBlocks.zipIdx.foldlM (cacheBlock groupId (blockHashes.drop numCachedBlocks)) pool

def maybeEvictCachedBlock (b : Nat) (pool : BlockPool H) : BlockPool H :=
  match (pool.blocks b).blockHash with
  | none => pool
  | some key =>
      match pool.cachedBlockHashToBlock.pop key b with
      | none => pool
      | some map => (pool.modify b .resetHash).withCached map

def takeNewBlock (pool : BlockPool H) (b : Nat) : Except EngineError (BlockPool H) :=
  let evicted :=
    if pool.enableCaching && !(pool.blocks b).pinned then pool.maybeEvictCachedBlock b else pool
  if (evicted.blocks b).refCnt ≠ 0 then .error .newBlockReferenced
  else .ok (evicted.modify b .incRef)

def getNewBlocks (numBlocks : Nat) (pool : BlockPool H) :
    Except EngineError (List Nat × BlockPool H) :=
  if pool.getNumFreeBlocks < numBlocks then .error .notEnoughFreeBlocks
  else do
    let (ret, queue) ← pool.freeBlockQueue.popleftN numBlocks
    let pool ← ret.foldlM takeNewBlock (pool.withQueue queue)
    return (ret, pool)

def touchBlock (pool : BlockPool H) (b : Nat) : Except EngineError (BlockPool H) := do
  let block := pool.blocks b
  let queue ←
    if block.refCnt = 0 && !block.isNull && !block.pinned then pool.freeBlockQueue.remove b
    else .ok pool.freeBlockQueue
  return (pool.modify b .incRef).withQueue queue

def touch (blocks : List (List Nat)) (pool : BlockPool H) : Except EngineError (BlockPool H) :=
  blocks.flatten.foldlM touchBlock pool

/-- `free_blocks`: all counts are decremented before any block is queued. -/
def freeBlocks (orderedBlocks : List Nat) (pool : BlockPool H) : BlockPool H :=
  let decremented := orderedBlocks.foldl (fun pool b => pool.modify b .decRef) pool
  decremented.withQueue <| pool.freeBlockQueue.appendN <| orderedBlocks.filter fun b =>
    let block := decremented.blocks b
    block.refCnt = 0 && !block.isNull && !block.pinned

def evictBlocks (blockIds : List Nat) (pool : BlockPool H) : Except EngineError (BlockPool H) :=
  blockIds.foldlM (fun pool b =>
    if b < pool.numGpuBlocks then .ok (pool.maybeEvictCachedBlock b)
    else .error .invalidBlockId) pool

/-- `reset_prefix_cache`: only when all blocks but the null block are free. -/
def resetPrefixCache (pool : BlockPool H) : Bool × BlockPool H :=
  if (pool.numGpuBlocks : Int) - pool.getNumFreeBlocks ≠ 1 then (false, pool)
  else (true, { pool with
    cachedBlockHashToBlock := .empty
    blocks := fun b => (pool.blocks b).resetHash })

def setPinned (value : Bool) (b : Nat) (pool : BlockPool H) : BlockPool H :=
  pool.modify b (.setPinned value)

end

end BlockPool

end Kalypso.Engine
