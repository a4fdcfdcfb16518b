import Kalypso.Lib.Dict
import Kalypso.Engine.CacheHit
import Kalypso.Engine.Request

/-!
# The KV-cache manager

A `SingleTypeKVCacheManager` keeps the block tables of one KV-cache group.  `KVCacheManager`
passes every operation to the managers of all groups, in order, over one shared block pool.
-/

set_option autoImplicit false

namespace Kalypso.Engine

open Kalypso.Lib

structure SingleTypeKVCacheManager where
  kvCacheSpec : KVCacheSpec
  /-- the block size of the specification times the context-parallel world size -/
  blockSize : Nat
  kvCacheGroupId : Nat
  reqToBlocks : Dict Nat (List Nat)
  numCachedBlock : Dict Nat Nat

namespace SingleTypeKVCacheManager

variable {H : Type} [DecidableEq H]

section

omit [DecidableEq H]

def table (requestId : Nat) (manager : SingleTypeKVCacheManager) : List Nat :=
  manager.reqToBlocks.getD requestId []

def setTable (requestId : Nat) (blocks : List Nat) (manager : SingleTypeKVCacheManager) :
    SingleTypeKVCacheManager :=
  { manager with reqToBlocks := manager.reqToBlocks.set requestId blocks }

def withEntry (requestId : Nat) (manager : SingleTypeKVCacheManager) : SingleTypeKVCacheManager :=
  manager.setTable requestId (manager.table requestId)

def numTokensWithSpeculative (manager : SingleTypeKVCacheManager) (numTokens : Int) : Int :=
  match manager.kvCacheSpec.attention with
  | .mamba numSpeculativeBlocks =>
      numTokens + manager.kvCacheSpec.blockSize * numSpeculativeBlocks
  | _ => numTokens

def getNumBlocksToAllocate (pool : BlockPool H) (requestId : Nat) (numTokens : Int)
    (newComputedBlocks : List Nat) (manager : SingleTypeKVCacheManager) :
    Int × SingleTypeKVCacheManager :=
  let numRequiredBlocks := cdiv (manager.numTokensWithSpeculative numTokens) manager.blockSize
  let numNewBlocks :=
    numRequiredBlocks - newComputedBlocks.length - (manager.table requestId).length
  let numEvictable := newComputedBlocks.countP fun b =>
    (pool.blocks b).refCnt = 0 && !(pool.blocks b).isNull
  (numNewBlocks + numEvictable, manager.withEntry requestId)

def saveNewComputedBlocks (requestId : Nat) (newComputedBlocks : List Nat)
    (manager : SingleTypeKVCacheManager) : Except EngineError SingleTypeKVCacheManager :=
  match manager.kvCacheSpec.attention, manager.numCachedBlock.get? requestId with
  | .cross, _ =>
      if newComputedBlocks ≠ [] then .error .unsupportedAttention else .ok manager
  | _, none =>
      if manager.table requestId ≠ [] then .error .newRequestHasBlocks
      else
        .ok { manager.setTable requestId newComputedBlocks with
          numCachedBlock := manager.numCachedBlock.set requestId newComputedBlocks.length }
  | _, some _ =>
      if newComputedBlocks ≠ [] then .error .runningRequestHasHits else .ok manager

def allocateNewBlocks (requestId : Nat) (numTokens : Int) (pool : BlockPool H)
    (manager : SingleTypeKVCacheManager) :
    Except EngineError (List Nat × BlockPool H × SingleTypeKVCacheManager) :=
  let reqBlocks := manager.table requestId
  let numNewBlocks :=
    cdiv (manager.numTokensWithSpeculative numTokens) manager.blockSize - reqBlocks.length
  if numNewBlocks ≤ 0 then .ok ([], pool, manager.withEntry requestId)
  else do
    let (newBlocks, pool) ← pool.getNewBlocks numNewBlocks.toNat
    return (newBlocks, pool, manager.setTable requestId (reqBlocks ++ newBlocks))

def cacheBlocks (request : Request H) (numTokens : Int) (pool : BlockPool H)
    (manager : SingleTypeKVCacheManager) :
    Except EngineError (Unit × BlockPool H × SingleTypeKVCacheManager) :=
  match manager.kvCacheSpec.attention with
  | .cross => .error .unsupportedAttention
  | _ =>
      let numCachedBlocks := manager.numCachedBlock.getD request.requestId 0
      let numFullBlocks := numTokens / manager.blockSize
      if numFullBlocks ≤ numCachedBlocks then .ok ((), pool, manager)
      else do
        let pool ← pool.cacheFullBlocks request.blockHashes (manager.table request.requestId)
          numCachedBlocks numFullBlocks.toNat manager.blockSize manager.kvCacheGroupId
        return ((), pool, { manager.withEntry request.requestId with
          numCachedBlock := manager.numCachedBlock.set request.requestId numFullBlocks.toNat })

def free (requestId : Nat) (pool : BlockPool H) (manager : SingleTypeKVCacheManager) :
    Except EngineError (Unit × BlockPool H × SingleTypeKVCacheManager) :=
  .ok ((), pool.freeBlocks (manager.table requestId).reverse, { manager with
    reqToBlocks := manager.reqToBlocks.erase requestId
    numCachedBlock := manager.numCachedBlock.erase requestId })

def getNumSkippedTokens (manager : SingleTypeKVCacheManager) (numComputedTokens : Int) : Int :=
  match manager.kvCacheSpec.attention with
  | .slidingWindow slidingWindow => numComputedTokens - slidingWindow + 1
  | .chunkedLocal chunkSize => numComputedTokens / chunkSize * chunkSize
  | .full | .mamba _ | .cross => 0

/-- The loop of `remove_skipped_blocks` from index `n - 1` down to the first null block: the
removed blocks and the table in which null blocks stand in their places. -/
def skipBlocks : Nat → List Nat → Except EngineError (List Nat × List Nat)
  | 0, blocks => .ok ([], blocks)
  | n + 1, blocks =>
      match blocks[n]? with
      | none => .error .indexOutOfRange
      | some b =>
          if b = nullBlock then .ok ([], blocks)
          else do
            let (removed, blocks) ← skipBlocks n (blocks.set n nullBlock)
            return (b :: removed, blocks)

def removeSkippedBlocks (requestId : Nat) (numComputedTokens : Int) (pool : BlockPool H)
    (manager : SingleTypeKVCacheManager) :
    Except EngineError (Unit × BlockPool H × SingleTypeKVCacheManager) :=
  let numSkippedTokens := manager.getNumSkippedTokens numComputedTokens
  if numSkippedTokens ≤ 0 then .ok ((), pool, manager)
  else do
    let numSkippedBlocks := numSkippedTokens / manager.blockSize
    let (removed, blocks) ← skipBlocks numSkippedBlocks.toNat (manager.table requestId)
    return ((), pool.freeBlocks removed, manager.setTable requestId blocks)

def countCommonBlocks (pool : BlockPool H) (numTables : Nat) : List Nat → Nat
  | [] => 0
  | b :: blocks =>
      if (pool.blocks b).refCnt = numTables then countCommonBlocks pool numTables blocks + 1
      else 0

def getNumCommonPrefixBlocks (pool : BlockPool H) (runningRequestId : Nat)
    (manager : SingleTypeKVCacheManager) : Nat × SingleTypeKVCacheManager :=
  match manager.kvCacheSpec.attention with
  | .full =>
      let manager := manager.withEntry runningRequestId
      (countCommonBlocks pool manager.reqToBlocks.entries.length (manager.table runningRequestId),
        manager)
  | _ => (0, manager)

end

end SingleTypeKVCacheManager

/-- The configuration of the manager, with what its constructors assert. -/
structure KVCacheConfig where
  numBlocks : Nat
  groups : List KVCacheSpec
  maxModelLen : Nat
  hashBlockSize : Nat
  enableCaching : Bool
  useEagle : Bool
  /-- `dcp_world_size * pcp_world_size` -/
  worldSize : Nat
  numBlocks_pos : 0 < numBlocks
  hashBlockSize_eq : ∀ spec, enableCaching = true → groups = [spec] →
    hashBlockSize = spec.blockSize * worldSize

structure KVCacheManager (H : Type) where
  maxModelLen : Nat
  enableCaching : Bool
  useEagle : Bool
  worldSize : Nat
  blockPool : BlockPool H
  singleTypeManagers : List SingleTypeKVCacheManager

def forEachManager {H β : Type}
    (f : BlockPool H → SingleTypeKVCacheManager →
      Except EngineError (β × BlockPool H × SingleTypeKVCacheManager)) :
    BlockPool H → List SingleTypeKVCacheManager →
      Except EngineError (List β × BlockPool H × List SingleTypeKVCacheManager)
  | pool, [] => .ok ([], pool, [])
  | pool, manager :: rest => do
      let (out, pool, manager) ← f pool manager
      let (outs, pool, rest) ← forEachManager f pool rest
      return (out :: outs, pool, manager :: rest)

namespace KVCacheManager

variable {H : Type} [DecidableEq H]

section

omit [DecidableEq H]

def init (config : KVCacheConfig) : KVCacheManager H where
  maxModelLen := config.maxModelLen
  enableCaching := config.enableCaching
  useEagle := config.useEagle
  worldSize := config.worldSize
  blockPool := .init config.numBlocks config.enableCaching config.hashBlockSize
  singleTypeManagers := config.groups.zipIdx.map fun (spec, i) =>
    ⟨spec, spec.blockSize * config.worldSize, i, .empty, .empty⟩

def onManagers (f : BlockPool H → SingleTypeKVCacheManager →
      Except EngineError (Unit × BlockPool H × SingleTypeKVCacheManager))
    (m : KVCacheManager H) : Except EngineError (KVCacheManager H) := do
  let (_, pool, managers) ← forEachManager f m.blockPool m.singleTypeManagers
  return { m with blockPool := pool, singleTypeManagers := managers }

def emptyKVCacheBlocks (m : KVCacheManager H) : List (List Nat) :=
  m.singleTypeManagers.map fun _ => []

def getBlocks (requestId : Nat) (m : KVCacheManager H) : List (List Nat) :=
  m.singleTypeManagers.map fun manager => manager.table requestId

/-- `find_longest_cache_hit` of the coordinator for one group or for several. -/
def findLongestCacheHit (hashes : List H) (maxCacheHitLength : Nat) (m : KVCacheManager H) :
    Except EngineError (List (List Nat) × Nat) :=
  match m.singleTypeManagers with
  | [manager] => do
      let hitBlocks ← m.blockPool.findLongestCacheHit manager.kvCacheSpec
        (hashes.map fun hash => [hash]) maxCacheHitLength [0] m.useEagle manager.blockSize
        m.worldSize
      return (hitBlocks, (BlockPool.firstGroup hitBlocks).length * manager.blockSize)
  | managers => do
      let groups ← BlockPool.verifyAndSplitKVCacheGroups (managers.map (·.kvCacheSpec))
      m.blockPool.hybridHit groups hashes maxCacheHitLength m.useEagle

/-- `get_computed_blocks`.  The last token must be recomputed, so that it is never a hit. -/
def getComputedBlocks (request : Request H) (m : KVCacheManager H) :
    Except EngineError (List (List Nat) × Nat) :=
  if !m.enableCaching || request.skipReadingPrefixCache then .ok (m.emptyKVCacheBlocks, 0)
  else m.findLongestCacheHit request.blockHashes (request.numTokens - 1)

/-- The blocks that the group at the head of `newComputedBlocks` needs.  Cross-attention blocks
are counted by the encoder tokens and never hit. -/
def getNumBlocksForGroup (pool : BlockPool H) (requestId : Nat)
    (numTokens numEncoderTokens : Int) (newComputedBlocks : List (List Nat))
    (manager : SingleTypeKVCacheManager) : Except EngineError (Int × SingleTypeKVCacheManager) :=
  match manager.kvCacheSpec.attention, newComputedBlocks with
  | .cross, _ => .ok (manager.getNumBlocksToAllocate pool requestId numEncoderTokens [])
  | _, [] => .error .indexOutOfRange
  | _, blocks :: _ => .ok (manager.getNumBlocksToAllocate pool requestId numTokens blocks)

def getNumBlocksToAllocate (pool : BlockPool H) (requestId : Nat)
    (numTokens numEncoderTokens : Int) :
    List SingleTypeKVCacheManager → List (List Nat) →
      Except EngineError (Int × List SingleTypeKVCacheManager)
  | [], _ => .ok (0, [])
  | manager :: managers, newComputedBlocks => do
      let (needed, manager) ← getNumBlocksForGroup pool requestId numTokens numEncoderTokens
        newComputedBlocks manager
      let (others, managers) ← getNumBlocksToAllocate pool requestId numTokens numEncoderTokens
        managers newComputedBlocks.tail
      return (needed + others, manager :: managers)

def saveNewComputedBlocks (requestId : Nat) :
    List SingleTypeKVCacheManager → List (List Nat) →
      Except EngineError (List SingleTypeKVCacheManager)
  | [], _ => .ok []
  | _ :: _, [] => .error .indexOutOfRange
  | manager :: managers, blocks :: newComputedBlocks => do
      let manager ← manager.saveNewComputedBlocks requestId blocks
      let managers ← saveNewComputedBlocks requestId managers newComputedBlocks
      return manager :: managers

def allocateNewBlocks (requestId : Nat) (numTokens numEncoderTokens : Int) :
    BlockPool H → List SingleTypeKVCacheManager →
      Except EngineError (List (List Nat) × BlockPool H × List SingleTypeKVCacheManager) :=
  forEachManager fun pool manager =>
    manager.allocateNewBlocks requestId
      (match manager.kvCacheSpec.attention with
        | .cross => numEncoderTokens
        | _ => numTokens) pool

def removeSkippedBlocks (requestId : Nat) (numComputedTokens : Int) (m : KVCacheManager H) :
    Except EngineError (KVCacheManager H) :=
  m.onManagers (SingleTypeKVCacheManager.removeSkippedBlocks requestId numComputedTokens)

def free (requestId : Nat) (m : KVCacheManager H) : Except EngineError (KVCacheManager H) :=
  m.onManagers (SingleTypeKVCacheManager.free requestId)

def cacheBlocks (request : Request H) (numComputedTokens : Int) (m : KVCacheManager H) :
    Except EngineError (KVCacheManager H) :=
  if m.enableCaching then
    m.onManagers (SingleTypeKVCacheManager.cacheBlocks request numComputedTokens)
  else .ok m

def pinRequest (requestId : Nat) (m : KVCacheManager H) : KVCacheManager H :=
  { m with blockPool := (m.getBlocks requestId).flatten.foldl (fun pool b =>
      if (pool.blocks b).isNull || (pool.blocks b).blockHash.isNone then pool
      else pool.setPinned true b) m.blockPool }

/-- The loop of `unpin_request`: the flags of all blocks of the request. -/
def clearPinned (requestId : Nat) (m : KVCacheManager H) : KVCacheManager H :=
  { m with blockPool :=
      (m.getBlocks requestId).flatten.foldl (fun pool b => pool.setPinned false b) m.blockPool }

def unpinRequest (requestId : Nat) (m : KVCacheManager H) : Except EngineError (KVCacheManager H) :=
  (m.clearPinned requestId).free requestId

structure SlotArgs (H : Type) where
  request : Request H
  numNewTokens : Int
  numNewComputedTokens : Int
  newComputedBlocks : List (List Nat)
  numLookaheadTokens : Int
  delayCacheBlocks : Bool
  numEncoderTokens : Int

def numTokensNeedSlot (args : SlotArgs H) (m : KVCacheManager H) : Int :=
  min (args.request.numComputedTokens + args.numNewComputedTokens + args.numNewTokens +
    args.numLookaheadTokens) m.maxModelLen

def touchComputedBlocks (args : SlotArgs H) (m : KVCacheManager H) :
    Except EngineError (BlockPool H) :=
  if m.enableCaching then m.blockPool.touch args.newComputedBlocks
  else if args.newComputedBlocks.any fun blocks => !blocks.isEmpty then
    .error .hitsWithoutCaching
  else .ok m.blockPool

/-- `allocate_slots` puts the blocks of the prefix hit into the tables. -/
def saveComputedBlocks (args : SlotArgs H) (m : KVCacheManager H) :
    Except EngineError (List SingleTypeKVCacheManager) :=
  if args.newComputedBlocks.any fun blocks => !blocks.isEmpty then
    saveNewComputedBlocks args.request.requestId m.singleTypeManagers args.newComputedBlocks
  else .ok m.singleTypeManagers

def addComputedBlocks (args : SlotArgs H) (m : KVCacheManager H) :
    Except EngineError (KVCacheManager H) := do
  let pool ← m.touchComputedBlocks args
  let managers ← m.saveComputedBlocks args
  return { m with blockPool := pool, singleTypeManagers := managers }

/-- The first part of `allocate_slots`: the check for free blocks and, if there are enough of
them, the blocks of the prefix hit. -/
def takeComputedBlocks (args : SlotArgs H) (m : KVCacheManager H) :
    Except EngineError (Bool × KVCacheManager H) := do
  if args.numNewTokens = 0 then .error .noNewTokens
  else
    let m ← m.removeSkippedBlocks args.request.requestId args.request.numComputedTokens
    let (numBlocksToAllocate, managers) ← getNumBlocksToAllocate m.blockPool
      args.request.requestId (m.numTokensNeedSlot args) args.numEncoderTokens
      m.singleTypeManagers args.newComputedBlocks
    let m := { m with singleTypeManagers := managers }
    if m.blockPool.getNumFreeBlocks < numBlocksToAllocate then return (false, m)
    else
      let m ← m.addComputedBlocks args
      return (true, m)

/-- `allocate_slots`: the new blocks of every group, or nothing if there are not enough free
blocks. -/
def allocateSlots (args : SlotArgs H) (m : KVCacheManager H) :
    Except EngineError (Option (List (List Nat)) × KVCacheManager H) := do
  let (fits, m) ← m.takeComputedBlocks args
  if !fits then return (none, m)
  else
    let (newBlocks, pool, managers) ← allocateNewBlocks args.request.requestId
      (m.numTokensNeedSlot args) args.numEncoderTokens m.blockPool m.singleTypeManagers
    let m := { m with blockPool := pool, singleTypeManagers := managers }
    if !m.enableCaching || args.delayCacheBlocks then return (some newBlocks, m)
    else
      let numTokensToCache := min
        (args.request.numComputedTokens + args.numNewComputedTokens + args.numNewTokens)
        args.request.numTokens
      let m ← m.onManagers (SingleTypeKVCacheManager.cacheBlocks args.request numTokensToCache)
      return (some newBlocks,
        if args.request.pinned then m.pinRequest args.request.requestId else m)

/-- `get_num_common_prefix_blocks`.  The coordinator without prefix caching returns zeros. -/
def getNumCommonPrefixBlocks (runningRequestId : Nat) (m : KVCacheManager H) :
    List Nat × KVCacheManager H :=
  if m.enableCaching then
    let counted := m.singleTypeManagers.map
      (SingleTypeKVCacheManager.getNumCommonPrefixBlocks m.blockPool runningRequestId)
    (counted.map Prod.fst, { m with singleTypeManagers := counted.map Prod.snd })
  else (m.singleTypeManagers.map fun _ => 0, m)

def evictBlocks (blockIds : List Nat) (m : KVCacheManager H) :
    Except EngineError (KVCacheManager H) := do
  let pool ← m.blockPool.evictBlocks blockIds
  return { m with blockPool := pool }

def resetPrefixCache (m : KVCacheManager H) : Bool × KVCacheManager H :=
  (m.blockPool.resetPrefixCache.1, { m with blockPool := m.blockPool.resetPrefixCache.2 })

end

end KVCacheManager

end Kalypso.Engine
