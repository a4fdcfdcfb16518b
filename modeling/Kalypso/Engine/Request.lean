import Kalypso.Lib.Relation
import Kalypso.Engine.BlockPool

/-!
# Requests and their block hashes

The part of `Request` that the scheduler and the KV-cache manager read and write.  The hash of
a full block is computed from the hash of the block before it, the tokens of the block and the
extra keys of the request (adapter name, multimodal inputs, salt).  The hash function is a
parameter; where distinct contents must have distinct hashes, it is assumed collision free.
-/

set_option autoImplicit false

namespace Kalypso.Engine

open Kalypso.Lib

inductive RequestStatus where
  | waiting
  | waitingForFsm
  | waitingForRemoteKvs
  | running
  | preempted
  | finishedStopped
  | finishedLengthCapped
  | finishedAborted
  | finishedIgnored
  | finishedError
  deriving DecidableEq, Repr

def RequestStatus.isFinished : RequestStatus → Bool
  | .waiting | .waitingForFsm | .waitingForRemoteKvs | .running | .preempted => false
  | .finishedStopped | .finishedLengthCapped | .finishedAborted | .finishedIgnored
  | .finishedError => true

structure SamplingParams where
  maxTokens : Nat
  minTokens : Nat := 0
  ignoreEos : Bool := false
  stopTokenIds : List Nat := []
  /-- `structured_outputs` is given -/
  structuredOutputs : Bool := false
  /-- `extra_args["pinned"]` -/
  pinned : Bool := false
  skipReadingPrefixCache : Option Bool := none
  deriving DecidableEq, Repr

structure PoolingParams where
  skipReadingPrefixCache : Option Bool := none
  deriving DecidableEq, Repr

/-- A request as the front end sends it.  For prompt embeddings the token ids are zeros. -/
structure EngineCoreRequest where
  requestId : Nat
  clientIndex : Nat := 0
  promptTokenIds : List Nat
  samplingParams : Option SamplingParams
  poolingParams : Option PoolingParams := none
  eosTokenId : Option Nat := none
  arrivalTime : Int := 0
  loraIntId : Option Nat := none
  priority : Int := 0
  hasEncoderInputs : Bool := false
  numEncoderEmbeds : Nat → Int := fun _ => 0
  extraKeys : Nat → Option (List String) := fun _ => none

structure Request (H : Type) where
  requestId : Nat
  clientIndex : Nat
  priority : Int
  arrivalTime : Int
  pinned : Bool
  samplingParams : Option SamplingParams
  poolingParams : Option PoolingParams
  eosTokenId : Option Nat
  /-- `lora_request.lora_int_id` -/
  loraIntId : Option Nat
  /-- whether the grammar of a structured-output request has been compiled -/
  grammarReady : Bool
  hasEncoderInputs : Bool
  /-- `get_num_encoder_embeds` -/
  numEncoderEmbeds : Nat → Int
  skipReadingPrefixCache : Bool
  maxTokens : Nat
  numPromptTokens : Nat
  allTokenIds : List Nat
  outputTokenIds : List Nat
  specTokenIds : List Nat
  numOutputPlaceholders : Int
  numComputedTokens : Int
  numCachedTokens : Int
  numPreemptions : Nat
  /-- `generate_block_hash_extra_keys` for the block that starts at a token index -/
  extraKeys : Nat → Option (List String)
  blockHashes : List H
  status : RequestStatus
  stopReason : Option Nat

namespace Request

variable {H : Type}

def numTokens (request : Request H) : Nat := request.allTokenIds.length

def numTokensWithSpec (request : Request H) : Nat :=
  request.allTokenIds.length + request.specTokenIds.length

def numOutputTokens (request : Request H) : Nat := request.outputTokenIds.length

def isFinished (request : Request H) : Bool := request.status.isFinished

end Request

/-! ## Block hashes -/

/-- `get_request_block_hasher`: the block size, `NONE_HASH` and the hash function. -/
structure BlockHasher (H : Type) where
  blockSize : Nat
  noneHash : H
  hashFunction : H → List Nat → Option (List String) → H

namespace BlockHasher

variable {H : Type}

def hashBlocks (hasher : BlockHasher H) (request : Request H) : Nat → Nat → H → List H
  | 0, _, _ => []
  | n + 1, startTokenIdx, prevBlockHash =>
      let blockTokens := (request.allTokenIds.drop startTokenIdx).take hasher.blockSize
      let blockHash :=
        hasher.hashFunction prevBlockHash blockTokens (request.extraKeys startTokenIdx)
      blockHash :: hasher.hashBlocks request n (startTokenIdx + hasher.blockSize) blockHash

/-- `request_block_hasher`: the hashes of the full blocks that are not hashed yet. -/
def requestBlockHasher (hasher : BlockHasher H) (request : Request H) : List H :=
  let startTokenIdx := request.blockHashes.length * hasher.blockSize
  hasher.hashBlocks request ((request.numTokens - startTokenIdx) / hasher.blockSize)
    startTokenIdx (request.blockHashes.getLast?.getD hasher.noneHash)

structure CollisionFree (hasher : BlockHasher H) : Prop where
  injective : ∀ parent parent' tokens tokens' extra extra',
    hasher.hashFunction parent tokens extra = hasher.hashFunction parent' tokens' extra' →
      parent = parent' ∧ tokens = tokens' ∧ extra = extra'
  ne_noneHash : ∀ parent tokens extra, hasher.hashFunction parent tokens extra ≠ hasher.noneHash

/-- `hash` is a hash of a block whose predecessor has the hash `parent`. -/
def Extends (hasher : BlockHasher H) (parent hash : H) : Prop :=
  ∃ tokens extra, hash = hasher.hashFunction parent tokens extra

def Chain (hasher : BlockHasher H) (hashes : List H) : Prop :=
  List.IsChain hasher.Extends (hasher.noneHash :: hashes)

theorem chain_nil (hasher : BlockHasher H) : hasher.Chain [] := List.IsChain.singleton _

variable {hasher : BlockHasher H}

theorem CollisionFree.unique (free : hasher.CollisionFree) (a b c : H) (first : hasher.Extends a c)
    (second : hasher.Extends b c) : a = b := by
  obtain ⟨tokens, extra, rfl⟩ := first
  obtain ⟨tokens', extra', same⟩ := second
  exact (free.injective _ _ _ _ _ _ same).1

theorem CollisionFree.not_extends (free : hasher.CollisionFree) (a : H) :
    ¬ hasher.Extends a hasher.noneHash := by
  rintro ⟨tokens, extra, same⟩
  exact free.ne_noneHash _ _ _ same.symm

theorem CollisionFree.nodup (free : hasher.CollisionFree) {hashes : List H}
    (chain : hasher.Chain hashes) : hashes.Nodup := by
  have distinct := nodup_of_isChain free.unique free.not_extends chain
  exact (List.nodup_cons.mp distinct).2

theorem CollisionFree.place (free : hasher.CollisionFree) {hashes hashes' : List H}
    (chain : hasher.Chain hashes) (chain' : hasher.Chain hashes') {i j : Nat} {hash : H}
    (atI : hashes[i]? = some hash) (atJ : hashes'[j]? = some hash) : i = j := by
  have first : (hasher.noneHash :: hashes)[i + 1]? = some hash := by simpa using atI
  have second : (hasher.noneHash :: hashes')[j + 1]? = some hash := by simpa using atJ
  have same := isChain_place free.unique free.not_extends chain chain' first second
  omega

theorem hashBlocks_isChain (hasher : BlockHasher H) (request : Request H) (n : Nat) :
    ∀ start prev, List.IsChain hasher.Extends (prev :: hasher.hashBlocks request n start prev) := by
  induction n with
  | zero => exact fun _ prev => List.IsChain.singleton prev
  | succ n ih =>
    intro start prev
    rw [hashBlocks, List.isChain_cons_cons]
    exact ⟨⟨_, _, rfl⟩, ih _ _⟩

theorem Chain.append_requestBlockHasher {request : Request H}
    (chain : hasher.Chain request.blockHashes) :
    hasher.Chain (request.blockHashes ++ hasher.requestBlockHasher request) := by
  have new := hashBlocks_isChain hasher request
    ((request.numTokens - request.blockHashes.length * hasher.blockSize) / hasher.blockSize)
    (request.blockHashes.length * hasher.blockSize)
    (request.blockHashes.getLast?.getD hasher.noneHash)
  exact isChain_append_last _ _ chain new

end BlockHasher

namespace Request

variable {H : Type}

def getSkipReadingPrefixCache (sampling : Option SamplingParams) (pooling : Option PoolingParams) :
    Bool :=
  match sampling.bind (·.skipReadingPrefixCache), pooling.bind (·.skipReadingPrefixCache) with
  | some skip, _ => skip
  | none, some skip => skip
  | none, none => false

/-- Append what `get_hash_new_full_blocks` returns.  Without prefix caching there is no
hasher. -/
def hashNewFullBlocks (hasher : Option (BlockHasher H)) (request : Request H) : Request H :=
  match hasher with
  | none => request
  | some hasher =>
      { request with blockHashes := request.blockHashes ++ hasher.requestBlockHasher request }

def init (request : EngineCoreRequest) : Request H where
  requestId := request.requestId
  clientIndex := request.clientIndex
  priority := request.priority
  arrivalTime := request.arrivalTime
  pinned := request.samplingParams.any (·.pinned)
  samplingParams := request.samplingParams
  poolingParams := request.poolingParams
  eosTokenId := request.eosTokenId
  loraIntId := request.loraIntId
  grammarReady := false
  hasEncoderInputs := request.hasEncoderInputs
  numEncoderEmbeds := request.numEncoderEmbeds
  skipReadingPrefixCache := getSkipReadingPrefixCache request.samplingParams request.poolingParams
  maxTokens := if request.poolingParams.isSome then 1 else request.samplingParams.elim 0
    (·.maxTokens)
  numPromptTokens := request.promptTokenIds.length
  allTokenIds := request.promptTokenIds
  outputTokenIds := []
  specTokenIds := []
  numOutputPlaceholders := 0
  numComputedTokens := 0
  numCachedTokens := -1
  numPreemptions := 0
  extraKeys := request.extraKeys
  blockHashes := []
  status :=
    if request.poolingParams.isNone && request.samplingParams.any (·.structuredOutputs) then
      .waitingForFsm
    else .waiting
  stopReason := none

def fromEngineCoreRequest (hasher : Option (BlockHasher H)) (request : EngineCoreRequest) :
    Except EngineError (Request H) :=
  if request.poolingParams.isNone && request.samplingParams.isNone then .error .noParams
  else .ok ((init request).hashNewFullBlocks hasher)

def appendOutputTokenId (hasher : Option (BlockHasher H)) (token : Nat) (request : Request H) :
    Request H :=
  hashNewFullBlocks hasher { request with
    outputTokenIds := request.outputTokenIds ++ [token]
    allTokenIds := request.allTokenIds ++ [token] }

def checkStop (maxModelLen : Nat) (request : Request H) : Except EngineError (Bool × Request H) :=
  match request.poolingParams, request.samplingParams with
  | some _, _ => .error .schedulerAssertion
  | none, none => .error .schedulerAssertion
  | none, some params =>
      if request.numOutputTokens < params.minTokens then .ok (false, request)
      else
        match request.outputTokenIds.getLast? with
        | none => .error .indexOutOfRange
        | some lastTokenId =>
            if !params.ignoreEos && some lastTokenId == request.eosTokenId then
              .ok (true, { request with status := .finishedStopped })
            else if lastTokenId ∈ params.stopTokenIds then
              .ok (true, { request with
                status := .finishedStopped, stopReason := some lastTokenId })
            else if maxModelLen ≤ request.numTokens || request.maxTokens ≤ request.numOutputTokens
            then .ok (true, { request with status := .finishedLengthCapped })
            else .ok (false, request)

def Hashed (hasher : Option (BlockHasher H)) (request : Request H) : Prop :=
  match hasher with
  | none => request.blockHashes = []
  | some hasher => hasher.Chain request.blockHashes

theorem Hashed.hashNewFullBlocks {hasher : Option (BlockHasher H)} {request : Request H}
    (hashed : request.Hashed hasher) : (request.hashNewFullBlocks hasher).Hashed hasher := by
  cases hasher with
  | none => exact hashed
  | some hasher => exact BlockHasher.Chain.append_requestBlockHasher hashed

theorem hashed_init (hasher : Option (BlockHasher H)) (request : EngineCoreRequest) :
    (init request : Request H).Hashed hasher := by
  cases hasher with
  | none => exact rfl
  | some hasher => exact hasher.chain_nil

theorem Hashed.nodup {hasher : Option (BlockHasher H)} {request : Request H}
    (hashed : request.Hashed hasher) (free : ∀ h ∈ hasher, h.CollisionFree) :
    request.blockHashes.Nodup := by
  cases hasher with
  | none =>
    have empty : request.blockHashes = [] := hashed
    rw [empty]
    exact List.nodup_nil
  | some hasher => exact (free hasher rfl).nodup hashed

end Request

abbrev ContentHash : Type := List (List Nat × Option (List String))

/-- A hash function without collisions: the hash of a block is the content of all blocks up to
it. -/
def contentHasher (blockSize : Nat) : BlockHasher ContentHash where
  blockSize := blockSize
  noneHash := []
  hashFunction := fun parent tokens extra => (tokens, extra) :: parent

theorem contentHasher_collisionFree
    (blockSize : Nat) : (contentHasher blockSize).CollisionFree := by
  refine ⟨fun parent parent' tokens tokens' extra extra' same => ?_,
    fun _ _ _ => List.cons_ne_nil _ _⟩
  simp only [contentHasher, List.cons.injEq, Prod.mk.injEq] at same
  exact ⟨same.2, same.1.1, same.1.2⟩

theorem contentHasher_free (blockSize : Nat) :
    ∀ h ∈ some (contentHasher blockSize), h.CollisionFree := by
  rintro h ⟨⟩
  exact contentHasher_collisionFree blockSize

end Kalypso.Engine
