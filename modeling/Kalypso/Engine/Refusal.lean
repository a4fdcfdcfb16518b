import Kalypso.Engine.SchedulerRuns

/-!
# Refused allocations

Before `allocate_slots` takes anything, it compares the number of free blocks with one count,
summed over the groups.  The count is set against the blocks that the allocation really takes
out of the free queue: the blocks of the hit that wait there, and the blocks that groups lack.
The two differ by the blocks of the hit that nobody references but that are pinned, which are
counted although they do not wait, and by the blocks that some groups have beyond their need,
which are counted against what other groups lack.
-/

set_option autoImplicit false

namespace Kalypso.Engine

open Kalypso.Lib BlockPool

/-! ## What an allocation takes -/

namespace SingleTypeKVCacheManager

/-- The tokens that need slots in a group: the encoder tokens for cross-attention. -/
def slotTokens (numTokens numEncoderTokens : Int) (manager : SingleTypeKVCacheManager) : Int :=
  match manager.kvCacheSpec.attention with
  | .cross => numEncoderTokens
  | _ => numTokens

/-- The blocks that a group lacks besides those of the hit; negative if it has more than it
needs. -/
def missing (requestId : Nat) (numTokens : Int) (hit : List Nat)
    (manager : SingleTypeKVCacheManager) : Int :=
  cdiv (manager.numTokensWithSpeculative numTokens) manager.blockSize - hit.length -
    (manager.table requestId).length

end SingleTypeKVCacheManager

def lack (numbers : List Int) : Int := (numbers.map fun n => max n 0).sum

def excess (numbers : List Int) : Int := (numbers.map fun n => max (-n) 0).sum

theorem sum_add_excess (numbers : List Int) : numbers.sum + excess numbers = lack numbers := by
  induction numbers with
  | nil => rfl
  | cons n numbers ih =>
    simp only [excess, lack, List.map_cons, List.sum_cons] at ih ⊢
    omega

theorem lack_nonneg (numbers : List Int) : 0 ≤ lack numbers := by
  induction numbers with
  | nil => exact le_refl 0
  | cons n numbers ih =>
    simp only [lack, List.map_cons, List.sum_cons] at ih ⊢
    omega

namespace KVCacheManager

variable {H : Type} {m m' m₁ : KVCacheManager H} {args : SlotArgs H}

def missing (requestId : Nat) (numTokens numEncoderTokens : Int) :
    List SingleTypeKVCacheManager → List (List Nat) → List Int :=
  List.zipWith fun manager hit =>
    manager.missing requestId (manager.slotTokens numTokens numEncoderTokens) hit

def missingFor (args : SlotArgs H) (m : KVCacheManager H) : List Int :=
  missing args.request.requestId (m.numTokensNeedSlot args) args.numEncoderTokens
    m.singleTypeManagers args.newComputedBlocks

def waitingHits (args : SlotArgs H) (m : KVCacheManager H) : Int :=
  args.newComputedBlocks.flatten.countP (· ∈ m.blockPool.freeBlockQueue.blocks)

/-- The blocks of the hit that nobody references and that are kept out of the free queue by
their pins. -/
def withheldHits (args : SlotArgs H) (m : KVCacheManager H) : Int :=
  args.newComputedBlocks.flatten.countP fun b =>
    (m.blockPool.blocks b).refCnt = 0 && !(m.blockPool.blocks b).isNull &&
      (m.blockPool.blocks b).pinned

def takenBlocks (args : SlotArgs H) (m : KVCacheManager H) : Int :=
  m.waitingHits args + lack (m.missingFor args)

def surplusBlocks (args : SlotArgs H) (m : KVCacheManager H) : Int := excess (m.missingFor args)

def Short (args : SlotArgs H) (m : KVCacheManager H) : Prop :=
  m.blockPool.getNumFreeBlocks < m.takenBlocks args

/-- There are fewer free blocks than the allocation takes, with the pinned blocks of the hit
added and the surplus of the groups taken off. -/
def SeemsShort (args : SlotArgs H) (m : KVCacheManager H) : Prop :=
  m.blockPool.getNumFreeBlocks + m.surplusBlocks args < m.takenBlocks args + m.withheldHits args

instance (args : SlotArgs H) (m : KVCacheManager H) : Decidable (m.SeemsShort args) :=
  inferInstanceAs (Decidable (_ < _))

def withEntries (requestId : Nat) (m : KVCacheManager H) : KVCacheManager H :=
  { m with singleTypeManagers :=
      m.singleTypeManagers.map (SingleTypeKVCacheManager.withEntry requestId) }

/-! ## What the caller passes -/

/-- Hits of distinct blocks, none of them for a cross-attention group or without caching. -/
structure SlotArgs.Proper (args : SlotArgs H) (m : KVCacheManager H) : Prop where
  valid : args.Valid m
  once : DistinctBlocks args.newComputedBlocks.flatten
  cross : List.Forall₂ (fun manager hit => manager.kvCacheSpec.attention = .cross → hit = [])
    m.singleTypeManagers args.newComputedBlocks
  uncached : m.enableCaching = false → args.newComputedBlocks.flatten = []

theorem flatten_emptyKVCacheBlocks (m : KVCacheManager H) : m.emptyKVCacheBlocks.flatten = [] := by
  simp [emptyKVCacheBlocks]

/-- A hit is empty, or there is caching and no group of cross-attention. -/
theorem getComputedBlocks_cross {request : Request H} {hits : List (List Nat)} {n : Nat}
    (computed : m.getComputedBlocks request = .ok (hits, n)) :
    hits.flatten = [] ∨ m.enableCaching = true ∧
      ∀ manager ∈ m.singleTypeManagers, manager.kvCacheSpec.attention ≠ .cross := by
  unfold getComputedBlocks at computed
  split at computed
  · cases computed
    exact Or.inl (flatten_emptyKVCacheBlocks m)
  · rename_i cached
    have enabled : m.enableCaching = true := by
      cases caching : m.enableCaching with
      | true => rfl
      | false => simp [caching] at cached
    refine Or.inr ⟨enabled, ?_⟩
    unfold findLongestCacheHit at computed
    split at computed
    · rename_i manager isOnly
      obtain ⟨blocks, search, -⟩ := bind_eq_ok.mp computed
      rw [isOnly]
      exact List.forall_mem_singleton.mpr (attention_of_findLongestCacheHit search)
    · obtain ⟨groups, splits, search⟩ := bind_eq_ok.mp computed
      intro manager isManager
      exact attention_of_hybridHit splits search _ (List.mem_map_of_mem isManager)

theorem SlotArgs.Issued.proper {hasher : Option (BlockHasher H)} (issued : args.Issued hasher m)
    (free : ∀ h ∈ hasher, h.CollisionFree) (ok : m.Ok) : args.Proper m := by
  have valid := issued.valid free
  have once := distinct_of_perGroup ok.pool.cache valid.hashes issued.perGroup List.nodup_range
  have found : args.newComputedBlocks.flatten = [] ∨ m.enableCaching = true ∧
      ∀ manager ∈ m.singleTypeManagers, manager.kvCacheSpec.attention ≠ .cross := by
    obtain ⟨-, noHit | ⟨n, computed⟩⟩ := issued
    · rw [noHit]
      exact Or.inl (flatten_emptyKVCacheBlocks m)
    · exact getComputedBlocks_cross computed
  refine ⟨valid, once, ?_, ?_⟩
  · refine List.forall₂_iff_zip.mpr ⟨valid.perGroup.symm, fun {manager hit} isPair isCross => ?_⟩
    obtain ⟨isManager, isHit⟩ := List.of_mem_zip isPair
    rcases found with empty | ⟨-, noCross⟩
    · exact List.flatten_eq_nil_iff.mp empty hit isHit
    · exact absurd isCross (noCross manager isManager)
  · intro disabled
    rcases found with empty | ⟨enabled, -⟩
    · exact empty
    · cases disabled.symm.trans enabled

/-- An operation that keeps the prefix cache keeps what was passed proper. -/
theorem SlotArgs.Proper.of_effect {requestId : Nat} {released : List Nat} (proper : args.Proper m)
    (effect : Effect requestId released m m') (same : SameCache m.blockPool m'.blockPool) :
    args.Proper m' := by
  refine ⟨proper.valid.of_sameCache effect.frame.length_eq.symm same, proper.once, ?_, ?_⟩
  · have specs := map_of_frame (fun _ _ frame => frame.kvCacheSpec) effect.frame
    have cross : List.Forall₂ (fun spec (hit : List Nat) => spec.attention = .cross → hit = [])
        (m.singleTypeManagers.map (·.kvCacheSpec)) args.newComputedBlocks :=
      List.forall₂_map_left_iff.mpr proper.cross
    rw [← specs] at cross
    exact List.forall₂_map_left_iff.mp cross
  · rw [effect.enableCaching]
    exact proper.uncached

/-! ## The count -/

theorem getNumBlocksToAllocate_eq (pool : BlockPool H) (requestId : Nat)
    (numTokens numEncoderTokens : Int) {managers : List SingleTypeKVCacheManager}
    {hits : List (List Nat)}
    (cross : List.Forall₂ (fun manager hit => manager.kvCacheSpec.attention = .cross → hit = [])
      managers hits) :
    getNumBlocksToAllocate pool requestId numTokens numEncoderTokens managers hits =
      .ok ((missing requestId numTokens numEncoderTokens managers hits).sum +
          (hits.flatten.countP fun b =>
            (pool.blocks b).refCnt = 0 && !(pool.blocks b).isNull : Nat),
        managers.map (SingleTypeKVCacheManager.withEntry requestId)) := by
  induction cross with
  | nil => rfl
  | @cons manager hit managers hits atHead _ ih =>
    have head : getNumBlocksForGroup pool requestId numTokens numEncoderTokens (hit :: hits)
        manager = .ok (manager.getNumBlocksToAllocate pool requestId
          (manager.slotTokens numTokens numEncoderTokens) hit) := by
      unfold getNumBlocksForGroup SingleTypeKVCacheManager.slotTokens
      cases attention : manager.kvCacheSpec.attention with
      | cross => rw [atHead attention]
      | _ => rfl
    rw [getNumBlocksToAllocate, head, List.tail_cons, ih]
    simp only [missing, List.zipWith_cons_cons, List.sum_cons, List.flatten_cons,
      List.countP_append, List.map_cons, SingleTypeKVCacheManager.getNumBlocksToAllocate,
      SingleTypeKVCacheManager.missing, bind, Except.bind, pure, Except.pure,
      Except.ok.injEq, Prod.mk.injEq, and_true, Int.natCast_add]
    omega

/-- The blocks of a hit that nobody references wait in the free queue or are pinned. -/
theorem Ok.countP_unreferenced (ok : m.Ok) (valid : args.Valid m) :
    ((args.newComputedBlocks.flatten.countP fun b =>
        (m.blockPool.blocks b).refCnt = 0 && !(m.blockPool.blocks b).isNull : Nat) : Int) =
      m.waitingHits args + m.withheldHits args := by
  have waits : ∀ b ∈ args.newComputedBlocks.flatten,
      decide (b ∈ m.blockPool.freeBlockQueue.blocks) =
        (decide ((m.blockPool.blocks b).refCnt = 0) &&
        !(m.blockPool.blocks b).isNull && !(m.blockPool.blocks b).pinned) := by
    intro b isHit
    obtain ⟨blocks, isBlocks, inBlocks⟩ := List.mem_flatten.mp isHit
    have inRange := valid.hits.valid ok.pool.cache ok.pool.positive isBlocks inBlocks
    have isNull := ok.pool.cache.null b
    by_cases null : b = nullBlock
    · have notWaiting : b ∉ m.blockPool.freeBlockQueue.blocks :=
        fun waiting => (ok.pool.refs.within b waiting).1 null
      rw [isNull, decide_eq_true null, decide_eq_false notWaiting, Bool.not_true, Bool.and_false,
        Bool.false_and]
    · have queued := (ok.freeQueue.1 b null inRange).1
      simp [queued, isNull, null, Bool.decide_and]
  have queued : args.newComputedBlocks.flatten.countP
      (· ∈ m.blockPool.freeBlockQueue.blocks) = args.newComputedBlocks.flatten.countP fun b =>
        decide ((m.blockPool.blocks b).refCnt = 0) && !(m.blockPool.blocks b).isNull &&
          !(m.blockPool.blocks b).pinned :=
    List.countP_congr fun b isHit => by rw [waits b isHit]
  rw [waitingHits, withheldHits, queued, add_comm,
    List.countP_eq_countP_filter_add _ _ fun b => (m.blockPool.blocks b).pinned,
    List.countP_filter, List.countP_filter, Int.natCast_add]

/-! ## The check -/

section

variable [DecidableEq H]

def fillSlots (args : SlotArgs H) (m : KVCacheManager H) :
    Except EngineError (Option (List (List Nat)) × KVCacheManager H) := do
  let (newBlocks, pool, managers) ← allocateNewBlocks args.request.requestId
    (m.numTokensNeedSlot args) args.numEncoderTokens m.blockPool m.singleTypeManagers
  let m := { m with blockPool := pool, singleTypeManagers := managers }
  if !m.enableCaching || args.delayCacheBlocks then return (some newBlocks, m)
  else
    let numTokensToCache := min
      (args.request.numComputedTokens + args.numNewComputedTokens + args.numNewTokens)
      args.request.numTokens
    let m ← m.onManagers (SingleTypeKVCacheManager.cacheBlocks args.request numTokensToCache)
    return (some newBlocks, if args.request.pinned then m.pinRequest args.request.requestId else m)

theorem allocateSlots_eq (args : SlotArgs H) (m : KVCacheManager H) :
    m.allocateSlots args = m.takeComputedBlocks args >>= fun (fits, m) =>
      if !fits then .ok (none, m) else m.fillSlots args :=
  rfl

theorem fillSlots_isSome (args : SlotArgs H) (m : KVCacheManager H) :
    Gives (fun result => result.1 ≠ none) (m.fillSlots args) := by
  unfold fillSlots
  refine Meets.any.bind fun _ _ => ?_
  dsimp only
  split
  · exact Option.some_ne_none _
  · exact Meets.any.bind fun _ _ => Option.some_ne_none _

variable (nonzero : args.numNewTokens ≠ 0)
  (removed : m.removeSkippedBlocks args.request.requestId args.request.numComputedTokens = .ok m₁)
  (ok : m₁.Ok) (proper : args.Proper m₁)

include nonzero removed ok proper

omit [DecidableEq H] in
theorem takeComputedBlocks_eq :
    m.takeComputedBlocks args =
      if m₁.SeemsShort args then .ok (false, m₁.withEntries args.request.requestId)
      else (m₁.withEntries args.request.requestId).addComputedBlocks args >>= fun m₂ =>
        .ok (true, m₂) := by
  have counts := getNumBlocksToAllocate_eq m₁.blockPool args.request.requestId
    (m₁.numTokensNeedSlot args) args.numEncoderTokens proper.cross
  rw [ok.countP_unreferenced proper.valid] at counts
  have balance : (m₁.missingFor args).sum + m₁.surplusBlocks args = lack (m₁.missingFor args) :=
    sum_add_excess _
  have compares : m₁.SeemsShort args ↔ m₁.blockPool.getNumFreeBlocks <
      (m₁.missingFor args).sum + (m₁.waitingHits args + m₁.withheldHits args) := by
    unfold SeemsShort takenBlocks
    omega
  unfold takeComputedBlocks
  rw [if_neg nonzero, removed]
  simp only [bind, Except.bind, counts, compares]
  rfl

/-- `allocate_slots` refuses when the free blocks seem short, and then all groups have an entry
for the request. -/
theorem allocateSlots_refused (short : m₁.SeemsShort args) :
    m.allocateSlots args = .ok (none, m₁.withEntries args.request.requestId) := by
  rw [allocateSlots_eq, takeComputedBlocks_eq nonzero removed ok proper, if_pos short]
  rfl

theorem allocateSlots_granted (enough : ¬ m₁.SeemsShort args) :
    m.allocateSlots args = (m₁.withEntries args.request.requestId).addComputedBlocks args >>=
      fun m₂ => m₂.fillSlots args := by
  rw [allocateSlots_eq, takeComputedBlocks_eq nonzero removed ok proper, if_neg enough]
  cases (m₁.withEntries args.request.requestId).addComputedBlocks args with
  | error e => rfl
  | ok m₂ => rfl

theorem allocateSlots_none_iff :
    (∃ m', m.allocateSlots args = .ok (none, m')) ↔ m₁.SeemsShort args := by
  constructor
  · rintro ⟨m', refused⟩
    by_contra enough
    rw [allocateSlots_granted nonzero removed ok proper enough] at refused
    obtain ⟨m₂, -, filled⟩ := bind_eq_ok.mp refused
    exact (fillSlots_isSome args m₂).ok filled rfl
  · exact fun short => ⟨_, allocateSlots_refused nonzero removed ok proper short⟩

end

/-- The state after the removal of the blocks out of the attention window. -/
theorem SlotArgs.Proper.removeSkippedBlocks {requestId : Nat} {numComputedTokens : Int}
    (proper : args.Proper m) (ok : m.Ok)
    (removed : m.removeSkippedBlocks requestId numComputedTokens = .ok m₁) :
    m₁.Ok ∧ args.Proper m₁ := by
  obtain ⟨effect, same⟩ := (ok.removeSkippedBlocks requestId numComputedTokens).ok removed
  exact ⟨effect.ok, proper.of_effect effect same⟩

variable [DecidableEq H] {config : KVCacheConfig} {hasher : Option (BlockHasher H)}

/-- `allocate_slots` refuses exactly when the free blocks are fewer than it takes, if and only if
neither the pinned blocks of the hit nor the surplus of some groups decides the comparison. -/
theorem refuses_when_short_iff (free : ∀ h ∈ hasher, h.CollisionFree)
    (reachable : Reachable config hasher m) (issued : args.Issued hasher m)
    (nonzero : args.numNewTokens ≠ 0)
    (removed : m.removeSkippedBlocks args.request.requestId args.request.numComputedTokens =
      .ok m₁) :
    ((∃ m', m.allocateSlots args = .ok (none, m')) ↔
        m₁.blockPool.getNumFreeBlocks < m₁.takenBlocks args) ↔
      (m₁.takenBlocks args ≤ m₁.blockPool.getNumFreeBlocks →
        m₁.takenBlocks args + m₁.withheldHits args ≤
          m₁.blockPool.getNumFreeBlocks + m₁.surplusBlocks args) ∧
      (m₁.blockPool.getNumFreeBlocks < m₁.takenBlocks args →
        m₁.blockPool.getNumFreeBlocks + m₁.surplusBlocks args <
          m₁.takenBlocks args + m₁.withheldHits args) := by
  have okBefore := (reachable.ok free).1
  obtain ⟨ok, proper⟩ := (issued.proper free okBefore).removeSkippedBlocks okBefore removed
  rw [allocateSlots_none_iff nonzero removed ok proper]
  unfold SeemsShort
  constructor
  · intro same
    exact ⟨fun enough => Int.not_lt.mp fun seems => absurd (same.mp seems) (Int.not_lt.mpr enough),
      same.mpr⟩
  · rintro ⟨ifEnough, ifShort⟩
    refine ⟨fun seems => ?_, ifShort⟩
    by_contra enough
    exact absurd seems (Int.not_lt.mpr (ifEnough (Int.not_lt.mp enough)))

end KVCacheManager

/-- The small pinned request has two of the three blocks and asks for two more. -/
def smallGrowingArgs : KVCacheManager.SlotArgs ContentHash :=
  ⟨{ smallPinnedRequest with numComputedTokens := 4 }, 4, 0, [[]], 0, false, 0⟩

theorem exists_smallGrowing :
    ∃ m m₁, KVCacheManager.Reachable smallKVCacheConfig (some (contentHasher 2)) m ∧
      smallGrowingArgs.Issued (some (contentHasher 2)) m ∧ m.removeSkippedBlocks 7 4 = .ok m₁ ∧
      m₁.blockPool.getNumFreeBlocks < m₁.takenBlocks smallGrowingArgs ∧
      m₁.SeemsShort smallGrowingArgs ∧
      ∀ manager ∈ m₁.singleTypeManagers, manager.reqToBlocks.get? 7 ≠ none := by
  have hashed : smallPinnedRequest.Hashed (some (contentHasher 2)) :=
    (Request.hashed_init _ _).hashNewFullBlocks
  have runs : ∃ m, (KVCacheManager.init smallKVCacheConfig).exec
        (.allocateSlots smallPinnedArgs) = .ok m ∧ [[]] = m.emptyKVCacheBlocks ∧
      ∃ m₁, m.removeSkippedBlocks 7 4 = .ok m₁ ∧
        m₁.blockPool.getNumFreeBlocks < m₁.takenBlocks smallGrowingArgs ∧
        m₁.SeemsShort smallGrowingArgs ∧
        ∀ manager ∈ m₁.singleTypeManagers, manager.reqToBlocks.get? 7 ≠ none := by
    decide +kernel
  obtain ⟨m, allocates, noHit, m₁, removes, numbers⟩ := runs
  exact ⟨m, m₁, .step (.allocateSlots smallPinnedArgs) .init ⟨hashed, Or.inl rfl⟩ allocates,
    ⟨hashed, Or.inl noHit⟩, removes, numbers⟩

theorem refuses_when_short_growing :
    ∃ m m₁ : KVCacheManager ContentHash,
      m.removeSkippedBlocks 7 4 = .ok m₁ ∧
      m₁.blockPool.getNumFreeBlocks < m₁.takenBlocks smallGrowingArgs ∧
      ((∃ m', m.allocateSlots smallGrowingArgs = .ok (none, m')) ↔
        m₁.blockPool.getNumFreeBlocks < m₁.takenBlocks smallGrowingArgs) := by
  obtain ⟨m, m₁, reachable, issued, removes, short, seems, -⟩ := exists_smallGrowing
  exact ⟨m, m₁, removes, short, (KVCacheManager.refuses_when_short_iff (contentHasher_free 2)
    reachable issued (by decide) removes).mpr
      ⟨fun enough => absurd short enough.not_gt, fun _ => seems⟩⟩

def smallResumedArgs : KVCacheManager.SlotArgs ContentHash :=
  ⟨smallPinnedRequest, 2, 2, [[1]], 0, false, 0⟩

/-- The small pinned request is preempted.  Its two blocks keep their pins and do not return to the
free queue.  When it is resumed, its first block is a hit and the only free block is all that it
lacks, but it is refused. -/
theorem refused_with_room :
    ∃ m m₁ m' : KVCacheManager ContentHash,
      KVCacheManager.Reachable smallKVCacheConfig (some (contentHasher 2)) m ∧
      smallResumedArgs.Issued (some (contentHasher 2)) m ∧
      m.removeSkippedBlocks 7 0 = .ok m₁ ∧
      m.allocateSlots smallResumedArgs = .ok (none, m') ∧
      m₁.takenBlocks smallResumedArgs ≤ m₁.blockPool.getNumFreeBlocks := by
  have hashed : smallPinnedRequest.Hashed (some (contentHasher 2)) :=
    (Request.hashed_init _ _).hashNewFullBlocks
  have runs : ∃ m₀, (KVCacheManager.init smallKVCacheConfig).exec
        (.allocateSlots smallPinnedArgs) = .ok m₀ ∧ ∃ m, m₀.exec (.free 7) = .ok m ∧
      (∃ hit, m.getComputedBlocks smallPinnedRequest = .ok hit ∧ hit = ([[1]], 2)) ∧
      (∃ m₁, m.removeSkippedBlocks 7 0 = .ok m₁ ∧
        m₁.takenBlocks smallResumedArgs ≤ m₁.blockPool.getNumFreeBlocks) ∧
      ∃ result, m.allocateSlots smallResumedArgs = .ok result ∧ result.1 = none := by
    decide +kernel
  obtain ⟨m₀, allocates, m, frees, ⟨_, computed, rfl⟩, ⟨m₁, removes, room⟩, ⟨_, m'⟩, returns,
    rfl⟩ := runs
  have allocated : KVCacheManager.Reachable smallKVCacheConfig (some (contentHasher 2)) m₀ :=
    .step (.allocateSlots smallPinnedArgs) .init ⟨hashed, Or.inl rfl⟩ allocates
  exact ⟨m, m₁, m', allocated.step (.free 7) trivial frees, ⟨hashed, Or.inr ⟨2, computed⟩⟩, removes,
    returns, room⟩

end Kalypso.Engine
