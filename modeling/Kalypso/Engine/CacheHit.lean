import Kalypso.Engine.PoolInvariant

/-!
# Prefix-cache hits

`find_longest_cache_hit` of the manager classes, one per attention type, and of the
coordinators that combine them.  A hit is a list of blocks for every group, aligned with the
block hashes of the request: each entry is the null block or a cached block that carries the
hash at its position.
-/

set_option autoImplicit false

namespace Kalypso.Engine

open Kalypso.Lib

inductive AttentionType where
  | full
  | slidingWindow (slidingWindow : Nat)
  | chunkedLocal (attentionChunkSize : Nat)
  | mamba (numSpeculativeBlocks : Nat)
  | cross
  deriving DecidableEq, Repr

structure KVCacheSpec where
  attention : AttentionType
  blockSize : Nat
  deriving DecidableEq, Repr

def cdiv (a b : Int) : Int := -((-a) / b)

namespace BlockPool

variable {H : Type}

def appendEach (computed : List (List Nat)) (cached : List Nat) : List (List Nat) :=
  List.zipWith (fun blocks b => blocks ++ [b]) computed cached

def setEach (i : Nat) (computed : List (List Nat)) (cached : List Nat) : List (List Nat) :=
  List.zipWith (fun blocks b => blocks.set i b) computed cached

def firstGroup (computed : List (List Nat)) : List Nat := computed.head?.getD []

/-- `while len(computed_blocks[0]) * block_size % alignment_tokens != 0: pop`; every iteration
shortens the first list by one, so its length bounds their number. -/
def popUnaligned (blockSize alignment : Nat) : Nat → List (List Nat) → List (List Nat)
  | 0, computed => computed
  | n + 1, computed =>
      if blockSize ≠ alignment ∧ (firstGroup computed).length * blockSize % alignment ≠ 0 then
        popUnaligned blockSize alignment n (computed.map List.dropLast)
      else computed

/-! ## Full attention -/

def takeCached (pool : BlockPool H) (groupIds : List Nat) :
    List (List H) → List (List Nat) → List (List Nat)
  | [], computed => computed
  | blockHash :: rest, computed =>
      match pool.getCachedBlock blockHash groupIds with
      | some cached => pool.takeCached groupIds rest (appendEach computed cached)
      | none => computed

def fullAttentionHit (pool : BlockPool H) (blockSize : Nat) (hashes : List (List H))
    (maxLength : Nat) (groupIds : List Nat) (useEagle : Bool) (alignment : Nat) : List (List Nat) :=
  let computed := pool.takeCached groupIds (hashes.take (maxLength / blockSize))
    (groupIds.map fun _ => [])
  let computed :=
    if useEagle && !(firstGroup computed).isEmpty then computed.map List.dropLast else computed
  popUnaligned blockSize alignment (firstGroup computed).length computed

/-! ## Sliding window -/

/-- The search from right to left; stops when enough contiguous blocks are cached. -/
def slidingWindowSearch (pool : BlockPool H) (hashes : List (List H)) (groupIds : List Nat)
    (blockSize alignment : Nat) (contiguousBlocks : Int) :
    Nat → List (List Nat) → Nat → Except EngineError (List (List Nat) × Nat × Bool)
  | 0, computed, numContiguous => .ok (computed, numContiguous, false)
  | i + 1, computed, numContiguous =>
      match hashes[i]? with
      | none => .error .indexOutOfRange
      | some blockHash =>
          match pool.getCachedBlock blockHash groupIds with
          | none =>
              pool.slidingWindowSearch hashes groupIds blockSize alignment contiguousBlocks i
                computed 0
          | some cached =>
              if numContiguous = 0 ∧ blockSize ≠ alignment ∧
                  (i + 1) * blockSize % alignment ≠ 0 then
                pool.slidingWindowSearch hashes groupIds blockSize alignment contiguousBlocks i
                  computed numContiguous
              else if contiguousBlocks ≤ (numContiguous + 1 : Nat) then
                .ok ((setEach i computed cached).map fun blocks =>
                  blocks.take (i + (numContiguous + 1)), numContiguous + 1, true)
              else
                pool.slidingWindowSearch hashes groupIds blockSize alignment contiguousBlocks i
                  (setEach i computed cached) (numContiguous + 1)

def slidingWindowHit (pool : BlockPool H) (slidingWindow blockSize : Nat)
    (hashes : List (List H)) (maxLength : Nat) (groupIds : List Nat) (useEagle : Bool)
    (alignment : Nat) : Except EngineError (List (List Nat)) := do
  let contiguousBlocks :=
    cdiv ((slidingWindow : Int) - 1) blockSize + if useEagle then 1 else 0
  let maxNumBlocks := maxLength / blockSize
  let (computed, numContiguous, matchFound) ←
    pool.slidingWindowSearch hashes groupIds blockSize alignment contiguousBlocks maxNumBlocks
      (groupIds.map fun _ => List.replicate maxNumBlocks nullBlock) 0
  let computed :=
    if matchFound then computed
    else
      let first := computed.map fun blocks => blocks.take numContiguous
      popUnaligned blockSize alignment (firstGroup first).length first
  if useEagle && !(firstGroup computed).isEmpty then
    if blockSize ≠ alignment then .error .unsupportedAttention
    else return computed.map List.dropLast
  else return computed

/-! ## Chunked local attention -/

def chunkedLocalSearch (pool : BlockPool H) (hashes : List (List H)) (groupIds : List Nat) :
    Nat → Nat → List (List Nat) → Except EngineError (List (List Nat))
  | 0, _, computed => .ok computed
  | n + 1, i, computed =>
      match hashes[i]? with
      | none => .error .indexOutOfRange
      | some blockHash =>
          match pool.getCachedBlock blockHash groupIds with
          | some cached =>
              pool.chunkedLocalSearch hashes groupIds n (i + 1) (appendEach computed cached)
          | none => .ok computed

def chunkedLocalHit (pool : BlockPool H) (chunkSize blockSize : Nat) (hashes : List (List H))
    (maxLength : Nat) (groupIds : List Nat) (useEagle : Bool) (alignment : Nat) :
    Except EngineError (List (List Nat)) :=
  if useEagle || blockSize ≠ alignment then .error .unsupportedAttention
  else
    let maxNumBlocks := maxLength / blockSize
    let startIdx := if 0 < maxLength then maxLength / chunkSize * chunkSize else 0
    let startBlockIdx := startIdx / blockSize
    pool.chunkedLocalSearch hashes groupIds (maxNumBlocks - startBlockIdx) startBlockIdx
      (groupIds.map fun _ => List.replicate startBlockIdx nullBlock)

/-! ## Mamba -/

def mambaSearch (pool : BlockPool H) (hashes : List (List H)) (groupIds : List Nat)
    (blockSize alignment : Nat) : Nat → Except EngineError (List (List Nat))
  | 0 => .ok (groupIds.map fun _ => [])
  | i + 1 =>
      match hashes[i]? with
      | none => .error .indexOutOfRange
      | some blockHash =>
          match pool.getCachedBlock blockHash groupIds with
          | none => pool.mambaSearch hashes groupIds blockSize alignment i
          | some cached =>
              if blockSize ≠ alignment ∧ (i + 1) * blockSize % alignment ≠ 0 then
                pool.mambaSearch hashes groupIds blockSize alignment i
              else .ok (cached.map fun b => List.replicate i nullBlock ++ [b])

/-! ## One attention type -/

/-- `find_longest_cache_hit` of the manager class of an attention type.  Context parallelism is
supported for full attention only. -/
def findLongestCacheHit (pool : BlockPool H) (spec : KVCacheSpec) (hashes : List (List H))
    (maxLength : Nat) (groupIds : List Nat) (useEagle : Bool) (alignment worldSize : Nat) :
    Except EngineError (List (List Nat)) :=
  match spec.attention with
  | .full =>
      .ok (pool.fullAttentionHit (spec.blockSize * worldSize) hashes maxLength groupIds useEagle
        alignment)
  | .slidingWindow slidingWindow =>
      if worldSize ≠ 1 then .error .unsupportedAttention
      else
        pool.slidingWindowHit slidingWindow spec.blockSize hashes maxLength groupIds useEagle
          alignment
  | .chunkedLocal chunkSize =>
      if worldSize ≠ 1 then .error .unsupportedAttention
      else
        pool.chunkedLocalHit chunkSize spec.blockSize hashes maxLength groupIds useEagle alignment
  | .mamba _ =>
      if worldSize ≠ 1 then .error .unsupportedAttention
      else
        pool.mambaSearch hashes groupIds spec.blockSize alignment (maxLength / spec.blockSize)
  | .cross => .error .unsupportedAttention

/-! ## Several groups -/

/-- The groups of a hybrid model: full attention and one other type. -/
structure HybridGroups where
  fullAttentionGroupIds : List Nat
  otherGroupIds : List Nat
  fullAttentionSpec : KVCacheSpec
  otherSpec : KVCacheSpec
  fullAttnFirst : Bool

def HybridGroups.groupIds (groups : HybridGroups) : List Nat :=
  if groups.fullAttnFirst then groups.fullAttentionGroupIds ++ groups.otherGroupIds
  else groups.otherGroupIds ++ groups.fullAttentionGroupIds

def verifyAndSplitKVCacheGroups (specs : List KVCacheSpec) : Except EngineError HybridGroups :=
  let isFull := fun i => specs[i]?.any fun spec => spec.attention = .full
  let fullIds := (List.range specs.length).filter isFull
  let otherIds := (List.range specs.length).filter fun i => !isFull i
  match specs.find? fun spec => spec.attention = .full,
    specs.find? fun spec => spec.attention ≠ .full with
  | some fullSpec, some otherSpec =>
      if !specs.all fun spec => spec = fullSpec || spec = otherSpec then
        .error .unsupportedAttention
      else if fullIds.all fun i => otherIds.all fun j => i < j then
        .ok ⟨fullIds, otherIds, fullSpec, otherSpec, true⟩
      else if otherIds.all fun j => fullIds.all fun i => j < i then
        .ok ⟨fullIds, otherIds, fullSpec, otherSpec, false⟩
      else .error .unsupportedAttention
  | _, _ => .error .unsupportedAttention

/-- `HybridKVCacheCoordinator.find_longest_cache_hit`: the hit of the other groups is searched
within the hit of full attention. -/
def hybridHit (pool : BlockPool H) (groups : HybridGroups) (hashes : List H) (maxLength : Nat)
    (useEagle : Bool) : Except EngineError (List (List Nat) × Nat) := do
  let fullSize := groups.fullAttentionSpec.blockSize
  let otherSize := groups.otherSpec.blockSize
  let alignment := Nat.lcm fullSize otherSize
  let fullHashes ← pool.groupBlockHashes fullSize hashes
  let fullHits ← pool.findLongestCacheHit groups.fullAttentionSpec fullHashes maxLength
    groups.fullAttentionGroupIds useEagle alignment 1
  let otherHashes ← pool.groupBlockHashes otherSize hashes
  let otherHits ← pool.findLongestCacheHit groups.otherSpec otherHashes
    ((firstGroup fullHits).length * fullSize) groups.otherGroupIds useEagle alignment 1
  let hitLength := (firstGroup otherHits).length * otherSize
  if hitLength % fullSize ≠ 0 then .error .unsupportedAttention
  else
    let fullHits := fullHits.map fun blocks => blocks.take (hitLength / fullSize)
    if groups.fullAttnFirst then return (fullHits ++ otherHits, hitLength)
    else return (otherHits ++ fullHits, hitLength)

/-! ## What a hit contains -/

/-- Every block of a hit is the null block or the cached block for the hash at its position. -/
def HitsAt (pool : BlockPool H) (hashes : List (List H)) (groupId : Nat) (blocks : List Nat) :
    Prop :=
  ∀ (i b : Nat), blocks[i]? = some b → b = nullBlock ∨
    ∃ blockHash, hashes[i]? = some blockHash ∧
      pool.cachedBlockHashToBlock.getOneBlock ⟨blockHash, groupId⟩ = some b

def CachedFor (pool : BlockPool H) (blockHash : List H) (groupId b : Nat) : Prop :=
  pool.cachedBlockHashToBlock.getOneBlock ⟨blockHash, groupId⟩ = some b

variable {pool : BlockPool H} {hashes : List (List H)} {groupId : Nat} {groupIds : List Nat}

theorem hitsAt_nil : pool.HitsAt hashes groupId [] := by
  intro i b found
  simp at found

theorem hitsAt_replicate_null (n : Nat) :
    pool.HitsAt hashes groupId (List.replicate n nullBlock) := by
  intro i b found
  exact Or.inl (List.eq_of_mem_replicate (List.mem_of_getElem? found))

variable {requestHashes : List H} {computed : List (List Nat)} {blocks : List Nat}
  {hits : List (List Nat)} {useEagle : Bool} {groups : HybridGroups}
  {maxLength alignment worldSize : Nat} {specs : List KVCacheSpec} {spec : KVCacheSpec} {b : Nat}

theorem HitsAt.take (hits : pool.HitsAt hashes groupId blocks) (n : Nat) :
    pool.HitsAt hashes groupId (blocks.take n) := by
  intro i b found
  rw [List.getElem?_take] at found
  split at found
  · exact hits i b found
  · cases found

theorem HitsAt.dropLast (hits : pool.HitsAt hashes groupId blocks) :
    pool.HitsAt hashes groupId blocks.dropLast := by
  rw [List.dropLast_eq_take]
  exact hits.take _

theorem HitsAt.append {blockHash : List H} (hits : pool.HitsAt hashes groupId blocks)
    (atEnd : hashes[blocks.length]? = some blockHash)
    (cached : pool.CachedFor blockHash groupId b) :
    pool.HitsAt hashes groupId (blocks ++ [b]) := by
  intro i x found
  rw [List.getElem?_append] at found
  split at found
  · exact hits i x found
  · rename_i notBefore
    have isEnd : i = blocks.length := by
      have inside := (List.getElem?_eq_some_iff.mp found).1
      simp only [List.length_singleton] at inside
      omega
    subst isEnd
    simp only [Nat.sub_self, List.getElem?_cons_zero, Option.some.injEq] at found
    subst found
    exact Or.inr ⟨blockHash, atEnd, cached⟩

theorem HitsAt.set {blockHash : List H} {b i : Nat} (hits : pool.HitsAt hashes groupId blocks)
    (atI : hashes[i]? = some blockHash) (cached : pool.CachedFor blockHash groupId b) :
    pool.HitsAt hashes groupId (blocks.set i b) := by
  intro j x found
  rw [List.getElem?_set] at found
  split at found
  · rename_i same
    subst same
    split at found
    · cases found
      exact Or.inr ⟨blockHash, atI, cached⟩
    · cases found
  · exact hits j x found

/-! ### Lists of one entry per group -/

theorem getCachedBlock_forall₂ {blockHash : List H} :
    ∀ {groupIds : List Nat} {cached : List Nat},
      pool.getCachedBlock blockHash groupIds = some cached →
        List.Forall₂ (pool.CachedFor blockHash) groupIds cached := by
  intro groupIds
  induction groupIds with
  | nil =>
    intro cached found
    cases found
    exact .nil
  | cons groupId groupIds ih =>
    intro cached found
    simp only [getCachedBlock, List.mapM_cons, Option.bind_eq_bind, Option.pure_def,
      Option.bind_eq_some_iff] at found
    obtain ⟨b, first, rest, others, isCached⟩ := found
    cases isCached
    exact .cons first (ih others)

theorem forall₂_zipWith {R : Nat → List Nat → Prop} {S : Nat → Nat → Prop}
    {T : Nat → List Nat → Prop} {f : List Nat → Nat → List Nat}
    (step : ∀ g blocks b, R g blocks → S g b → T g (f blocks b)) {cached : List Nat}
    (left : List.Forall₂ R groupIds computed) (right : List.Forall₂ S groupIds cached) :
    List.Forall₂ T groupIds (List.zipWith f computed cached) := by
  induction left generalizing cached with
  | nil =>
    cases right
    exact .nil
  | cons atHead _ ih =>
    cases right with
    | cons found rest => exact .cons (step _ _ _ atHead found) (ih rest)

theorem hits_dropLast (hits : List.Forall₂ (pool.HitsAt hashes) groupIds computed) :
    List.Forall₂ (pool.HitsAt hashes) groupIds (computed.map List.dropLast) :=
  List.forall₂_map_right_iff.mpr (hits.imp fun _ _ atG => atG.dropLast)

theorem hits_take (hits : List.Forall₂ (pool.HitsAt hashes) groupIds computed) (n : Nat) :
    List.Forall₂ (pool.HitsAt hashes) groupIds (computed.map fun blocks => blocks.take n) :=
  List.forall₂_map_right_iff.mpr (hits.imp fun _ _ atG => atG.take n)

theorem hits_setEach {cached : List Nat} {blockHash : List H} {i : Nat}
    (hits : List.Forall₂ (pool.HitsAt hashes) groupIds computed) (atI : hashes[i]? = some blockHash)
    (found : pool.getCachedBlock blockHash groupIds = some cached) :
    List.Forall₂ (pool.HitsAt hashes) groupIds (setEach i computed cached) := by
  refine forall₂_zipWith ?_ hits (getCachedBlock_forall₂ found)
  intro g blocks b atG cachedAt
  exact atG.set atI cachedAt

theorem forall₂_replicate {T : Nat → List Nat → Prop} (each : ∀ g, T g blocks)
    (groupIds : List Nat) :
    List.Forall₂ T groupIds (groupIds.map fun _ => blocks) := by
  induction groupIds with
  | nil => exact .nil
  | cons g groupIds ih => exact .cons (each g) ih

theorem popUnaligned_forall₂ {T : Nat → List Nat → Prop}
    (shorter : ∀ g blocks, T g blocks → T g blocks.dropLast) (blockSize alignment n : Nat) :
    ∀ computed, List.Forall₂ T groupIds computed →
      List.Forall₂ T groupIds (popUnaligned blockSize alignment n computed) := by
  induction n with
  | zero => exact fun _ each => each
  | succ n ih =>
    intro computed each
    rw [popUnaligned]
    split
    · exact ih _ (List.forall₂_map_right_iff.mpr (each.imp shorter))
    · exact each

/-! ### The searches -/

def CachedIn (pool : BlockPool H) (groupId : Nat) (blocks : List Nat) : Prop :=
  ∀ b ∈ blocks, ∃ blockHash, pool.CachedFor blockHash groupId b

theorem CachedIn.of_subset {blocks blocks' : List Nat} (cached : pool.CachedIn groupId blocks)
    (subset : blocks' ⊆ blocks) : pool.CachedIn groupId blocks' :=
  fun b member => cached b (subset member)

theorem CachedIn.dropLast (cached : pool.CachedIn groupId blocks) :
    pool.CachedIn groupId blocks.dropLast :=
  cached.of_subset (List.dropLast_sublist blocks).subset

theorem takeCached_hits (rest : List (List H)) :
    ∀ (k : Nat) (computed : List (List Nat)), rest <+: hashes.drop k →
      List.Forall₂ (fun g blocks => blocks.length = k ∧ pool.HitsAt hashes g blocks ∧
        pool.CachedIn g blocks) groupIds computed →
        List.Forall₂ (fun g blocks => pool.HitsAt hashes g blocks ∧ pool.CachedIn g blocks)
          groupIds (pool.takeCached groupIds rest computed) := by
  induction rest with
  | nil => exact fun _ _ _ hits => hits.imp fun _ _ => And.right
  | cons blockHash rest ih =>
    intro k computed isRest hits
    rw [takeCached]
    split
    · rename_i cached found
      obtain ⟨later, isRest⟩ := isRest
      have atK : hashes[k]? = some blockHash := by
        rw [← List.head?_drop, ← isRest]
        rfl
      refine ih (k + 1) _ ⟨later, ?_⟩ ?_
      · rw [← List.tail_drop, ← isRest]
        rfl
      · refine forall₂_zipWith ?_ hits (getCachedBlock_forall₂ found)
        rintro g blocks b ⟨rfl, atG, inGroup⟩ cachedAt
        refine ⟨by simp, atG.append atK cachedAt, fun x member => ?_⟩
        rcases List.mem_append.mp member with before | isNew
        · exact inGroup x before
        · rw [List.mem_singleton] at isNew
          exact ⟨blockHash, isNew ▸ cachedAt⟩
    · exact hits.imp fun _ _ => And.right

/-- The hit of full attention has no placeholders. -/
theorem fullAttentionHit_hits (blockSize maxLength : Nat) (useEagle : Bool) (alignment : Nat) :
    List.Forall₂ (fun g blocks => pool.HitsAt hashes g blocks ∧ pool.CachedIn g blocks) groupIds
      (pool.fullAttentionHit blockSize hashes maxLength groupIds useEagle alignment) := by
  have shorter : ∀ g blocks, pool.HitsAt hashes g blocks ∧ pool.CachedIn g blocks →
      pool.HitsAt hashes g blocks.dropLast ∧ pool.CachedIn g blocks.dropLast :=
    fun _ _ => And.imp HitsAt.dropLast CachedIn.dropLast
  have start : List.Forall₂ (fun g blocks => blocks.length = 0 ∧ pool.HitsAt hashes g blocks ∧
      pool.CachedIn g blocks) groupIds (groupIds.map fun _ => []) :=
    forall₂_replicate (fun _ => ⟨rfl, hitsAt_nil, nofun⟩) groupIds
  have taken := takeCached_hits _ 0 _ (List.take_prefix (maxLength / blockSize) hashes) start
  unfold fullAttentionHit
  refine popUnaligned_forall₂ shorter _ _ _ _ ?_
  split
  · exact List.forall₂_map_right_iff.mpr (taken.imp shorter)
  · exact taken

theorem slidingWindowSearch_hits {blockSize alignment : Nat} {contiguousBlocks : Int} (i : Nat) :
    ∀ (computed : List (List Nat)) (numContiguous : Nat)
      (result : List (List Nat) × Nat × Bool),
      List.Forall₂ (pool.HitsAt hashes) groupIds computed →
        pool.slidingWindowSearch hashes groupIds blockSize alignment contiguousBlocks i computed
          numContiguous = .ok result →
          List.Forall₂ (pool.HitsAt hashes) groupIds result.1 := by
  induction i with
  | zero =>
    intro computed numContiguous result hits search
    cases search
    exact hits
  | succ i ih =>
    intro computed numContiguous result hits search
    rw [slidingWindowSearch] at search
    split at search
    · cases search
    · rename_i blockHash atI
      split at search
      · exact ih _ _ _ hits search
      · rename_i cached found
        have added := hits_setEach hits atI found
        split at search
        · exact ih _ _ _ hits search
        · split at search
          · cases search
            exact hits_take added _
          · exact ih _ _ _ added search

theorem slidingWindowHit_hits {slidingWindow blockSize maxLength alignment : Nat}
    (search : pool.slidingWindowHit slidingWindow blockSize hashes maxLength groupIds useEagle
      alignment = .ok computed) : List.Forall₂ (pool.HitsAt hashes) groupIds computed := by
  rw [slidingWindowHit, bind_eq_ok] at search
  obtain ⟨⟨found, numContiguous, matchFound⟩, searched, finish⟩ := search
  have hits := slidingWindowSearch_hits _ _ _ _
    (forall₂_replicate (fun _ => hitsAt_replicate_null _) groupIds) searched
  have trimmed : List.Forall₂ (pool.HitsAt hashes) groupIds
      (if matchFound then found
        else popUnaligned blockSize alignment
          (firstGroup (found.map fun blocks => blocks.take numContiguous)).length
          (found.map fun blocks => blocks.take numContiguous)) := by
    split
    · exact hits
    · refine popUnaligned_forall₂ ?_ _ _ _ _ (hits_take hits _)
      exact fun _ _ => HitsAt.dropLast
  dsimp only at finish
  generalize (if matchFound then found
    else popUnaligned blockSize alignment
      (firstGroup (found.map fun blocks => blocks.take numContiguous)).length
      (found.map fun blocks => blocks.take numContiguous)) = kept at trimmed finish
  split at finish
  · split at finish
    · cases finish
    · cases finish
      exact hits_dropLast trimmed
  · cases finish
    exact trimmed

theorem chunkedLocalSearch_hits (n : Nat) :
    ∀ (k : Nat) (computed result : List (List Nat)),
      List.Forall₂ (fun g blocks => blocks.length = k ∧ pool.HitsAt hashes g blocks) groupIds
        computed →
        pool.chunkedLocalSearch hashes groupIds n k computed = .ok result →
          List.Forall₂ (pool.HitsAt hashes) groupIds result := by
  induction n with
  | zero =>
    intro k computed result hits search
    cases search
    exact hits.imp fun _ _ => And.right
  | succ n ih =>
    intro k computed result hits search
    rw [chunkedLocalSearch] at search
    split at search
    · cases search
    · rename_i blockHash atK
      split at search
      · rename_i cached found
        refine ih (k + 1) _ _ ?_ search
        refine forall₂_zipWith ?_ hits (getCachedBlock_forall₂ found)
        rintro g blocks b ⟨rfl, atG⟩ cachedAt
        exact ⟨by simp, atG.append atK cachedAt⟩
      · cases search
        exact hits.imp fun _ _ => And.right

theorem mambaSearch_hits {blockSize alignment : Nat} (i : Nat) :
    ∀ {computed : List (List Nat)},
      pool.mambaSearch hashes groupIds blockSize alignment i = .ok computed →
        List.Forall₂ (pool.HitsAt hashes) groupIds computed := by
  induction i with
  | zero =>
    intro computed search
    cases search
    exact forall₂_replicate (fun _ => hitsAt_nil) groupIds
  | succ i ih =>
    intro computed search
    rw [mambaSearch] at search
    split at search
    · cases search
    · rename_i blockHash atI
      split at search
      · exact ih search
      · rename_i cached found
        split at search
        · exact ih search
        · cases search
          refine List.forall₂_map_right_iff.mpr ((getCachedBlock_forall₂ found).imp ?_)
          intro g b cachedAt
          refine (hitsAt_replicate_null i).append ?_ cachedAt
          rw [List.length_replicate]
          exact atI

/-- Whatever the attention type, a hit contains only null blocks and cached blocks for the
hashes at their positions. -/
theorem findLongestCacheHit_hits
    (search : pool.findLongestCacheHit spec hashes maxLength groupIds useEagle alignment worldSize =
      .ok computed) : List.Forall₂ (pool.HitsAt hashes) groupIds computed := by
  unfold findLongestCacheHit at search
  split at search
  · cases search
    exact (fullAttentionHit_hits _ _ _ _).imp fun _ _ => And.left
  · split at search
    · cases search
    · exact slidingWindowHit_hits search
  · split at search
    · cases search
    · unfold chunkedLocalHit at search
      split at search
      · cases search
      · refine chunkedLocalSearch_hits _ _ _ _ (forall₂_replicate (fun _ => ?_) groupIds) search
        exact ⟨List.length_replicate, hitsAt_replicate_null _⟩
  · split at search
    · cases search
    · exact mambaSearch_hits _ search
  · cases search

theorem findLongestCacheHit_cachedIn (isFull : spec.attention = .full)
    (search : pool.findLongestCacheHit spec hashes maxLength groupIds useEagle alignment worldSize =
      .ok computed) : List.Forall₂ pool.CachedIn groupIds computed := by
  rw [findLongestCacheHit, isFull] at search
  cases search
  exact (fullAttentionHit_hits _ _ _ _).imp fun _ _ => And.right

theorem attention_of_findLongestCacheHit
    (search : pool.findLongestCacheHit spec hashes maxLength groupIds useEagle alignment worldSize =
      .ok computed) : spec.attention ≠ .cross := by
  intro isCross
  rw [findLongestCacheHit, isCross] at search
  cases search

/-! ## Hits for a request -/

/-- Hits for a request with the given block hashes: the list of each group is a hit at some
granularity of the hashes. -/
def Hits (pool : BlockPool H) (hashes : List H) (hits : List (List Nat)) : Prop :=
  ∀ blocks ∈ hits, ∃ groupId blockSize groupHashes,
    pool.groupBlockHashes blockSize hashes = .ok groupHashes ∧
      pool.HitsAt groupHashes groupId blocks

def HitFor (pool : BlockPool H) (hashes : List H) (groupId : Nat) (blocks : List Nat) : Prop :=
  ∃ blockSize groupHashes, pool.groupBlockHashes blockSize hashes = .ok groupHashes ∧
    pool.HitsAt groupHashes groupId blocks

theorem hitFor_of_forall₂ {blockSize : Nat}
    (merged : pool.groupBlockHashes blockSize requestHashes = .ok hashes)
    (hits : List.Forall₂ (pool.HitsAt hashes) groupIds computed) :
    List.Forall₂ (pool.HitFor requestHashes) groupIds computed :=
  hits.imp fun _ _ atGroup => ⟨blockSize, hashes, merged, atGroup⟩

theorem hitFor_nil (requestHashes : List H) (groupId : Nat) :
    pool.HitFor requestHashes groupId [] :=
  ⟨pool.hashBlockSize, _, if_pos rfl, hitsAt_nil⟩

theorem hits_of_perGroup (hits : List.Forall₂ (pool.HitFor requestHashes) groupIds computed) :
    pool.Hits requestHashes computed := by
  induction hits with
  | nil => exact fun _ member => (nomatch member)
  | cons atHead _ ih =>
    intro blocks member
    rcases List.mem_cons.mp member with rfl | member
    · exact ⟨_, atHead⟩
    · exact ih blocks member

theorem hybridHit_perGroup {maxLength : Nat} {length : Nat}
    (search : pool.hybridHit groups requestHashes maxLength useEagle = .ok (hits, length)) :
    List.Forall₂ (pool.HitFor requestHashes) groups.groupIds hits := by
  simp only [hybridHit, bind_eq_ok] at search
  obtain ⟨fullHashes, fullMerged, fullHits, fullSearch, otherHashes, otherMerged, otherHits,
    otherSearch, finish⟩ := search
  have other := hitFor_of_forall₂ otherMerged (findLongestCacheHit_hits otherSearch)
  have truncated := fun n =>
    hitFor_of_forall₂ fullMerged (hits_take (findLongestCacheHit_hits fullSearch) n)
  unfold HybridGroups.groupIds
  split at finish
  · cases finish
  · split at finish
    · rename_i fullFirst
      cases finish
      rw [if_pos fullFirst]
      exact List.rel_append (truncated _) other
    · rename_i otherFirst
      cases finish
      rw [if_neg otherFirst]
      exact List.rel_append other (truncated _)

def isFullGroup (specs : List KVCacheSpec) (groupId : Nat) : Bool :=
  specs[groupId]?.any fun spec => spec.attention = .full

/-- What `verify_and_split_kv_cache_groups` accepts: groups of full attention and of one other
kind, all groups of one kind before those of the other. -/
structure HybridGroups.Splits (specs : List KVCacheSpec) (groups : HybridGroups) : Prop where
  isFull : groups.fullAttentionSpec.attention = .full
  isOther : groups.otherSpec.attention ≠ .full
  kinds : ∀ spec ∈ specs, spec = groups.fullAttentionSpec ∨ spec = groups.otherSpec
  fullIds : groups.fullAttentionGroupIds = (List.range specs.length).filter (isFullGroup specs)
  otherIds : groups.otherGroupIds =
    (List.range specs.length).filter fun groupId => !isFullGroup specs groupId
  fullBefore : groups.fullAttnFirst = true → ∀ i ∈ groups.fullAttentionGroupIds,
    ∀ j ∈ groups.otherGroupIds, i < j
  otherBefore : groups.fullAttnFirst = false → ∀ j ∈ groups.otherGroupIds,
    ∀ i ∈ groups.fullAttentionGroupIds, j < i

section

variable (splits : verifyAndSplitKVCacheGroups specs = .ok groups)

include splits

theorem verifyAndSplitKVCacheGroups_splits : groups.Splits specs := by
  unfold verifyAndSplitKVCacheGroups at splits
  dsimp only at splits
  split at splits
  · rename_i fullSpec otherSpec isFullSpec isOtherSpec
    have isFull : fullSpec.attention = .full := by simpa using List.find?_some isFullSpec
    have isOther : otherSpec.attention ≠ .full := by simpa using List.find?_some isOtherSpec
    split at splits
    · cases splits
    · rename_i noThird
      have kinds : ∀ spec ∈ specs, spec = fullSpec ∨ spec = otherSpec := by
        simpa [or_iff_not_imp_left] using noThird
      split at splits
      · rename_i fullFirst
        cases splits
        refine ⟨isFull, isOther, kinds, rfl, rfl, fun _ i isFull j isOther => ?_, nofun⟩
        have before := List.all_eq_true.mp (List.all_eq_true.mp fullFirst i isFull) j isOther
        exact of_decide_eq_true before
      · split at splits
        · rename_i otherFirst
          cases splits
          refine ⟨isFull, isOther, kinds, rfl, rfl, nofun, fun _ j isOther i isFull => ?_⟩
          have before := List.all_eq_true.mp (List.all_eq_true.mp otherFirst j isOther) i isFull
          exact of_decide_eq_true before
        · cases splits
  · cases splits

/-- In the hit of a hybrid model the groups of full attention have no placeholders. -/
theorem hybridHit_cachedIn {maxLength : Nat} {length : Nat}
    (search : pool.hybridHit groups requestHashes maxLength useEagle = .ok (hits, length)) :
    List.Forall₂ (fun groupId blocks =>
      isFullGroup specs groupId = true → pool.CachedIn groupId blocks) groups.groupIds hits := by
  have split := verifyAndSplitKVCacheGroups_splits splits
  simp only [hybridHit, bind_eq_ok] at search
  obtain ⟨_, _, fullHits, fullSearch, _, _, otherHits, otherSearch, finish⟩ := search
  have full : ∀ n, List.Forall₂ (fun groupId blocks =>
      isFullGroup specs groupId = true → pool.CachedIn groupId blocks)
      groups.fullAttentionGroupIds (fullHits.map fun blocks => blocks.take n) := by
    intro n
    have cached := findLongestCacheHit_cachedIn split.isFull fullSearch
    exact List.forall₂_map_right_iff.mpr (cached.imp fun _ blocks inGroup _ =>
      inGroup.of_subset (List.take_subset n blocks))
  have other : List.Forall₂ (fun groupId blocks =>
      isFullGroup specs groupId = true → pool.CachedIn groupId blocks)
      groups.otherGroupIds otherHits := by
    have sameLength := (findLongestCacheHit_hits otherSearch).length_eq
    refine List.forall₂_iff_zip.mpr ⟨sameLength, fun {groupId blocks} isPair isFull => ?_⟩
    have isOther := (List.of_mem_zip isPair).1
    rw [split.otherIds, List.mem_filter, isFull] at isOther
    cases isOther.2
  unfold HybridGroups.groupIds
  split at finish
  · cases finish
  · split at finish
    · rename_i fullFirst
      cases finish
      rw [if_pos fullFirst]
      exact List.rel_append (full _) other
    · rename_i otherFirst
      cases finish
      rw [if_neg otherFirst]
      exact List.rel_append other (full _)

theorem attention_of_hybridHit {maxLength : Nat} {found : List (List Nat) × Nat}
    (search : pool.hybridHit groups requestHashes maxLength useEagle = .ok found) :
    ∀ spec ∈ specs, spec.attention ≠ .cross := by
  simp only [hybridHit, bind_eq_ok] at search
  obtain ⟨_, _, _, fullSearch, _, _, _, otherSearch, _⟩ := search
  have full := attention_of_findLongestCacheHit fullSearch
  have other := attention_of_findLongestCacheHit otherSearch
  intro spec isSpec
  rcases (verifyAndSplitKVCacheGroups_splits splits).kinds spec isSpec with rfl | rfl
  · exact full
  · exact other

end

theorem append_eq_range (n : Nat) (isFirst : Nat → Bool)
    (ordered : ∀ i ∈ (List.range n).filter isFirst,
      ∀ j ∈ (List.range n).filter fun j => !isFirst j, i < j) :
    (List.range n).filter isFirst ++ (List.range n).filter (fun j => !isFirst j) =
      List.range n := by
  have sorted := List.pairwise_lt_range (n := n)
  refine (List.filter_append_perm isFirst (List.range n)).eq_of_pairwise
    (fun i j _ _ below above => absurd below (Nat.lt_asymm above)) ?_ sorted
  exact List.pairwise_append.mpr ⟨sorted.filter _, sorted.filter _, ordered⟩

theorem verifyAndSplitKVCacheGroups_groupIds
    (splits : verifyAndSplitKVCacheGroups specs = .ok groups) :
    groups.groupIds = List.range specs.length := by
  have split := verifyAndSplitKVCacheGroups_splits splits
  have fullBefore := split.fullBefore
  have otherBefore := split.otherBefore
  rw [split.fullIds, split.otherIds] at fullBefore otherBefore
  unfold HybridGroups.groupIds
  rw [split.fullIds, split.otherIds]
  cases first : groups.fullAttnFirst with
  | true => exact append_eq_range _ _ (fullBefore first)
  | false =>
    have swapped := append_eq_range specs.length fun i => !isFullGroup specs i
    simp only [Bool.not_not] at swapped
    exact swapped (otherBefore first)

/-! ## Distinct blocks -/

theorem mergeBlockHashes_nodup (distinct : requestHashes.Nodup) (scale : Nat) :
    (mergeBlockHashes scale requestHashes).Nodup := by
  refine List.Nodup.map_on ?_ List.nodup_range
  intro i insideI j insideJ same
  rw [List.mem_range] at insideI insideJ
  have positive : 0 < scale := by
    by_contra none
    have isZero : scale = 0 := by omega
    rw [isZero, Nat.div_zero] at insideI
    omega
  have start : ∀ k, k < requestHashes.length / scale → k * scale < requestHashes.length := by
    intro k inside
    have fits := (Nat.lt_div_iff_mul_lt positive).mp inside
    have commuted := Nat.mul_comm scale k
    omega
  have heads := congrArg List.head? same
  rw [List.head?_take, List.head?_take, if_neg (by omega), if_neg (by omega), List.head?_drop,
    List.head?_drop] at heads
  have sameStart := (List.getElem?_inj (start i insideI) distinct).mp heads
  exact Nat.eq_of_mul_eq_mul_right positive sameStart

theorem groupBlockHashes_nodup (distinct : requestHashes.Nodup) {blockSize : Nat}
    (merged : pool.groupBlockHashes blockSize requestHashes = .ok hashes) : hashes.Nodup := by
  unfold groupBlockHashes at merged
  split at merged
  · cases merged
    exact distinct.map fun a b same => List.singleton_inj.mp same
  · split at merged
    · cases merged
    · cases merged
      exact mergeBlockHashes_nodup distinct _

def DistinctBlocks (blocks : List Nat) : Prop := (blocks.filter fun b => b ≠ nullBlock).Nodup

theorem distinctBlocks_of_getElem? :
    ∀ blocks : List Nat,
      (∀ i j b : Nat, b ≠ nullBlock → blocks[i]? = some b → blocks[j]? = some b → i = j) →
        DistinctBlocks blocks := by
  intro blocks
  induction blocks with
  | nil => exact fun _ => List.nodup_nil
  | cons head blocks ih =>
    intro once
    have rest : DistinctBlocks blocks := by
      refine ih fun i j b notNull atI atJ => ?_
      have shifted := once (i + 1) (j + 1) b notNull (by simpa using atI) (by simpa using atJ)
      omega
    by_cases isNull : head = nullBlock
    · rw [DistinctBlocks, List.filter_cons_of_neg (by simpa using isNull)]
      exact rest
    · rw [DistinctBlocks, List.filter_cons_of_pos (by simpa using isNull), List.nodup_cons]
      refine ⟨fun member => ?_, rest⟩
      obtain ⟨j, atJ⟩ := List.getElem?_of_mem (List.mem_of_mem_filter member)
      have same := once 0 (j + 1) head isNull rfl (by simpa using atJ)
      omega

/-- The blocks of a hit are distinct, because the hashes of a request are. -/
theorem Hits.distinct (cache : pool.CacheOk) (distinct : requestHashes.Nodup)
    (areHits : pool.Hits requestHashes hits) (member : blocks ∈ hits) : DistinctBlocks blocks := by
  obtain ⟨groupId, blockSize, groupHashes, merged, atGroup⟩ := areHits blocks member
  have distinctHashes := groupBlockHashes_nodup distinct merged
  refine distinctBlocks_of_getElem? blocks fun i j b notNull atI atJ => ?_
  obtain ⟨hashI, foundI, cachedI⟩ := (atGroup i b atI).resolve_left notNull
  obtain ⟨hashJ, foundJ, cachedJ⟩ := (atGroup j b atJ).resolve_left notNull
  have carriesI := cache.blockHash_of_getOneBlock cachedI
  have carriesJ := cache.blockHash_of_getOneBlock cachedJ
  rw [carriesI, Option.some.injEq, BlockHashWithGroupId.mk.injEq] at carriesJ
  have inside := (List.getElem?_eq_some_iff.mp foundI).1
  refine (List.getElem?_inj inside distinctHashes).mp ?_
  rw [foundI, foundJ, carriesJ.1]

theorem HitFor.blockHash (cache : pool.CacheOk) {groupId : Nat}
    (hit : pool.HitFor requestHashes groupId blocks) (inBlocks : b ∈ blocks)
    (notNull : b ≠ nullBlock) :
    ∃ blockHash, (pool.blocks b).blockHash = some ⟨blockHash, groupId⟩ := by
  obtain ⟨blockSize, groupHashes, merged, atGroup⟩ := hit
  obtain ⟨i, atI⟩ := List.getElem?_of_mem inBlocks
  obtain ⟨blockHash, found, cached⟩ := (atGroup i b atI).resolve_left notNull
  exact ⟨blockHash, cache.blockHash_of_getOneBlock cached⟩

theorem blockHash_of_perGroup (cache : pool.CacheOk)
    (perGroup : List.Forall₂ (pool.HitFor requestHashes) groupIds hits) (isHit : b ∈ hits.flatten)
    (notNull : b ≠ nullBlock) :
    ∃ groupId ∈ groupIds, ∃ blockHash, (pool.blocks b).blockHash = some ⟨blockHash, groupId⟩ := by
  induction perGroup with
  | nil => exact absurd isHit List.not_mem_nil
  | cons hit _ ih =>
    rw [List.flatten_cons, List.mem_append] at isHit
    rcases isHit with here | later
    · exact ⟨_, List.mem_cons_self, hit.blockHash cache here notNull⟩
    · obtain ⟨groupId, isGroup, carries⟩ := ih later
      exact ⟨groupId, List.mem_cons_of_mem _ isGroup, carries⟩

theorem distinct_of_perGroup (cache : pool.CacheOk) (distinct : requestHashes.Nodup)
    (perGroup : List.Forall₂ (pool.HitFor requestHashes) groupIds hits) (ids : groupIds.Nodup) :
    DistinctBlocks hits.flatten := by
  induction perGroup with
  | nil => exact List.nodup_nil
  | @cons groupId blocks groupIds hits hit rest ih =>
    obtain ⟨notLater, idsRest⟩ := List.nodup_cons.mp ids
    have here : pool.Hits requestHashes [blocks] := hits_of_perGroup (.cons hit .nil)
    have once := here.distinct cache distinct List.mem_cons_self
    have onceRest := ih idsRest
    unfold DistinctBlocks at once onceRest ⊢
    rw [List.flatten_cons, List.filter_append]
    refine List.Nodup.append once onceRest fun b inHead inRest => ?_
    have notNull : b ≠ nullBlock := by simpa using (List.mem_filter.mp inHead).2
    obtain ⟨_, atHead⟩ := hit.blockHash cache (List.mem_of_mem_filter inHead) notNull
    obtain ⟨other, isGroup, _, atRest⟩ :=
      blockHash_of_perGroup cache rest (List.mem_of_mem_filter inRest) notNull
    rw [atHead, Option.some.injEq, BlockHashWithGroupId.mk.injEq] at atRest
    exact notLater (atRest.2 ▸ isGroup)

theorem Hits.valid (cache : pool.CacheOk) (positive : 0 < pool.numGpuBlocks)
    (areHits : pool.Hits requestHashes hits) (member : blocks ∈ hits) (inBlocks : b ∈ blocks) :
    b < pool.numGpuBlocks := by
  obtain ⟨groupId, blockSize, groupHashes, merged, atGroup⟩ := areHits blocks member
  obtain ⟨i, atI⟩ := List.getElem?_of_mem inBlocks
  rcases atGroup i b atI with isNull | ⟨blockHash, found, cached⟩
  · rw [isNull]
    exact positive
  · exact cache.hashed b _ (cache.blockHash_of_getOneBlock cached)

end BlockPool

end Kalypso.Engine
