import Kalypso.Engine.BlockPlaces
import Kalypso.Engine.SchedulerRuns

/-!
# Common prefix blocks

`get_num_common_prefix_blocks` compares reference counts with the number of block tables.  A block
of full attention stands at one index only and at most once in a table, so a count that reaches the
number of tables means that the block is in all of them, at the same index.
-/

set_option autoImplicit false

namespace Kalypso.Engine

open Kalypso.Lib BlockPool
open SingleTypeKVCacheManager

/-! ## Runs -/

def KVOp.Hashed {H : Type} (hasher : Option (BlockHasher H)) : KVOp H → Prop
  | .cacheBlocks request _ => request.Hashed hasher
  | _ => True

namespace KVCacheManager

variable {H : Type} [DecidableEq H] {config : KVCacheConfig} {hasher : Option (BlockHasher H)}
  {m m' : KVCacheManager H}

/-- The states of a manager whose caller passes requests with the hashes of the hasher. -/
inductive Served (config : KVCacheConfig) (hasher : Option (BlockHasher H)) :
    KVCacheManager H → Prop
  | init : Served config hasher (init config)
  | step {m m' : KVCacheManager H} (op : KVOp H) : Served config hasher m → m.Issued hasher op →
      op.Hashed hasher → m.exec op = .ok m' → Served config hasher m'
  | count {m : KVCacheManager H} (requestId : Nat) : Served config hasher m →
      Served config hasher (m.getNumCommonPrefixBlocks requestId).2

omit [DecidableEq H] in
theorem getNumCommonPrefixBlocks_readTables (requestId : Nat) (m : KVCacheManager H) :
    ReadTables requestId m.singleTypeManagers ((m.singleTypeManagers.map
      (SingleTypeKVCacheManager.getNumCommonPrefixBlocks m.blockPool requestId)).map Prod.snd) := by
  rw [List.map_map]
  refine List.forall₂_map_right_iff.mpr (List.forall₂_same.mpr fun manager _ => ?_)
  simp only [Function.comp_apply, SingleTypeKVCacheManager.getNumCommonPrefixBlocks]
  split
  · exact Or.inr rfl
  · exact Or.inl rfl

omit [DecidableEq H] in
theorem Arranged.getNumCommonPrefixBlocks (arranged : m.Arranged config hasher) (requestId : Nat) :
    (m.getNumCommonPrefixBlocks requestId).2.Arranged config hasher := by
  unfold KVCacheManager.getNumCommonPrefixBlocks
  split
  · exact arranged.readTables (getNumCommonPrefixBlocks_readTables requestId m)
  · exact arranged

theorem Served.ok (served : Served config hasher m) (free : ∀ h ∈ hasher, h.CollisionFree) :
    m.Ok ∧ m.enableCaching = config.enableCaching := by
  induction served with
  | init => exact ⟨init_ok config, rfl⟩
  | step op _ issued _ ran ih =>
    obtain ⟨ok', -, same⟩ := (ih.1.exec free issued).ok ran
    exact ⟨ok', same.trans ih.2⟩
  | @count m requestId _ ih =>
    have reads := getNumCommonPrefixBlocks_readTables requestId m
    unfold KVCacheManager.getNumCommonPrefixBlocks
    split
    · exact ⟨(ih.1.readTables reads).ok, ih.2⟩
    · exact ih

theorem Arranged.exec (arranged : m.Arranged config hasher)
    (caching : config.enableCaching = true) (free : ∀ h ∈ hasher, h.CollisionFree) {op : KVOp H}
    (issued : m.Issued hasher op) (hashed : op.Hashed hasher) :
    Gives (Arranged config hasher) (m.exec op) := by
  cases op with
  | allocateSlots args =>
    exact (arranged.allocateSlots caching free issued).bind fun _ arranged' => arranged'
  | cacheBlocks request numComputedTokens =>
    simp only [KVCacheManager.exec, KVCacheManager.cacheBlocks]
    split
    · exact arranged.cacheBlocks caching hashed numComputedTokens
    · exact arranged
  | removeSkippedBlocks requestId numComputedTokens =>
    exact arranged.removeSkippedBlocks caching requestId numComputedTokens
  | free requestId => exact arranged.free caching requestId
  | pinRequest requestId => exact arranged.pinRequest requestId
  | unpinRequest requestId => exact (arranged.clearPinned requestId).free caching requestId
  | evictBlocks blockIds =>
    have evicted := (evictBlocks_blockHash blockIds m.blockPool).and
      (arranged.ok.pool.evictBlocks blockIds)
    refine evicted.bind ?_
    rintro pool ⟨hashes, okPool, same⟩
    exact ⟨⟨okPool, arranged.ok.distinct⟩,
      ⟨arranged.shaped.groups, arranged.shaped.enableCaching,
        same.enableCaching.trans arranged.shaped.poolCaching⟩,
      arranged.placed.of_subset (fun _ _ => id) hashes⟩
  | resetPrefixCache =>
    obtain ⟨okPool, same⟩ := arranged.ok.pool.resetPrefixCache
    exact ⟨⟨okPool, arranged.ok.distinct⟩,
      ⟨arranged.shaped.groups, arranged.shaped.enableCaching,
        same.enableCaching.trans arranged.shaped.poolCaching⟩,
      arranged.placed.of_subset (fun _ _ => id) fun _ _ => resetPrefixCache_blockHash⟩

theorem Served.arranged (served : Served config hasher m) (caching : config.enableCaching = true)
    (free : ∀ h ∈ hasher, h.CollisionFree) : m.Arranged config hasher := by
  induction served with
  | init => exact arranged_init config hasher
  | step op _ issued hashed ran ih => exact (ih.exec caching free issued hashed).ok ran
  | count requestId _ ih => exact ih.getNumCommonPrefixBlocks requestId

end KVCacheManager

/-- The operations in the life of requests cache nothing but their own hashes. -/
theorem Lifecycle.served_of_trace {H : Type} [DecidableEq H] {config : KVCacheConfig}
    {hasher : Option (BlockHasher H)} {s : Lifecycle H} {ops : List (LifecycleOp H)}
    (run : Trace (Lifecycle.Step hasher) (.init config) ops s) :
    KVCacheManager.Served config hasher s.kv := by
  refine run.invariant (P := fun s => KVCacheManager.Served config hasher s.kv) ?_ .init
  intro s op s' step served
  cases step with
  | add => exact served
  | allocate _ _ issued allocated =>
    refine served.step (.allocateSlots _) issued trivial ?_
    rw [KVCacheManager.exec, allocated]
    rfl
  | progress => exact served
  | preempt _ _ freed | finish _ _ _ _ freed => exact served.step (.free _) trivial trivial freed
  | finishPinned => exact served
  | pin => exact served.step (.pinRequest _) trivial trivial rfl
  | unpin unpinned => exact served.step (.unpinRequest _) trivial trivial unpinned

theorem Scheduler.served_of_trace {H E : Type} [DecidableEq H]
    {encoders : EncoderCacheManager H E} {config : SchedulerConfig}
    {hasher : Option (BlockHasher H)} {kvConfig : KVCacheConfig} {encoder : E}
    {s : Scheduler H E} {ops : List SchedulerOp} (free : ∀ h ∈ hasher, h.CollisionFree)
    (run : Trace (Step encoders) (init config hasher kvConfig encoder) ops s) :
    KVCacheManager.Served kvConfig hasher s.kv := by
  obtain ⟨steps, toS⟩ := lifecycle_of_trace free run
  exact Lifecycle.served_of_trace toS

/-! ## Counts -/

namespace SingleTypeKVCacheManager

variable {H : Type} {manager : SingleTypeKVCacheManager} {requestId b : Nat}

theorem withEntry_of_mem (inTable : b ∈ manager.table requestId) :
    manager.withEntry requestId = manager := by
  refine withEntry_eq_iff.mpr fun absent => ?_
  simp [table, Dict.getD, absent] at inTable

/-- A block that occurs as often as there are tables is in all of them. -/
theorem mem_of_count_holders (distinct : manager.Distinct) (notNull : b ≠ nullBlock)
    (all : manager.holders.count b = manager.reqToBlocks.entries.length) {blocks : List Nat}
    (found : manager.reqToBlocks.get? requestId = some blocks) : b ∈ blocks := by
  have once : ∀ entry ∈ manager.reqToBlocks.entries, (entry.2 : Multiset Nat).count b ≤ 1 := by
    rintro ⟨other, table⟩ isEntry
    have isTable : manager.table other = table := by
      simp [SingleTypeKVCacheManager.table, Dict.getD,
        (manager.reqToBlocks.get?_eq_some_iff other table).mpr isEntry]
    have nodup := distinct other
    rw [isTable, DistinctBlocks] at nodup
    have counted : (table.filter fun b => b ≠ nullBlock).count b = table.count b :=
      List.count_filter (by simpa using notNull)
    rw [Multiset.coe_count, ← counted]
    exact List.nodup_iff_count_le_one.mp nodup b
  have everywhere := mem_of_count_sum (fun entry : Nat × List Nat => (entry.2 : Multiset Nat)) b
    once all
  exact everywhere (requestId, blocks) ((manager.reqToBlocks.get?_eq_some_iff _ _).mp found)

/-- The blocks that are counted have as many references as there are tables. -/
theorem refCnt_of_countCommonBlocks (pool : BlockPool H) (numTables : Nat) :
    ∀ (blocks : List Nat) (i : Nat), i < countCommonBlocks pool numTables blocks →
      ∃ b, blocks[i]? = some b ∧ (pool.blocks b).refCnt = numTables := by
  intro blocks
  induction blocks with
  | nil => exact fun i inside => absurd inside (Nat.not_lt_zero i)
  | cons b blocks ih =>
    intro i inside
    rw [countCommonBlocks] at inside
    split at inside
    · rename_i isCommon
      cases i with
      | zero => exact ⟨b, rfl, isCommon⟩
      | succ i => exact ih i (Nat.lt_of_succ_lt_succ inside)
    · exact absurd inside (Nat.not_lt_zero i)

end SingleTypeKVCacheManager

namespace KVCacheManager

variable {H : Type} {config : KVCacheConfig} {hasher : Option (BlockHasher H)}
  {m : KVCacheManager H} {manager manager' : SingleTypeKVCacheManager} {b : Nat}

/-- A block stands in the tables of one group only, always at the same index. -/
theorem Arranged.place_unique (arranged : m.Arranged config hasher) (notNull : b ≠ nullBlock)
    (isManager : manager ∈ m.singleTypeManagers) (isManager' : manager' ∈ m.singleTypeManagers)
    {requestId other i j : Nat} (atI : (manager.table requestId)[i]? = some b)
    (atJ : (manager'.table other)[j]? = some b) :
    manager.kvCacheGroupId = manager'.kvCacheGroupId ∧ i = j := by
  have same := arranged.placed.once b (manager.kvCacheGroupId, i) (manager'.kvCacheGroupId, j)
    notNull ⟨manager, isManager, rfl, requestId, atI⟩ ⟨manager', isManager', rfl, other, atJ⟩
  exact Prod.ext_iff.mp same

theorem Arranged.count_holders (arranged : m.Arranged config hasher) (notNull : b ≠ nullBlock)
    (isManager : manager ∈ m.singleTypeManagers) {requestId : Nat}
    (inTable : b ∈ manager.table requestId) : m.holders.count b = manager.holders.count b := by
  obtain ⟨i, atI⟩ := List.getElem?_of_mem inTable
  have ids : (m.singleTypeManagers.map (·.kvCacheGroupId)).Nodup := by
    rw [arranged.shaped.groupIds]
    exact List.nodup_range
  obtain ⟨left, right, splits⟩ := List.append_of_mem isManager
  have absent : ∀ managers : List SingleTypeKVCacheManager,
      (∀ manager' ∈ managers, manager' ∈ m.singleTypeManagers ∧
        manager'.kvCacheGroupId ≠ manager.kvCacheGroupId) → (holdersOf managers).count b = 0 := by
    intro managers others
    refine Multiset.count_eq_zero.mpr fun held => ?_
    obtain ⟨manager', isOther, inUse⟩ := mem_holdersOf.mp held
    obtain ⟨other, inOther⟩ := SingleTypeKVCacheManager.mem_holders_iff.mp inUse
    obtain ⟨j, atJ⟩ := List.getElem?_of_mem inOther
    obtain ⟨isManager', different⟩ := others manager' isOther
    exact different (arranged.place_unique notNull isManager isManager' atI atJ).1.symm
  rw [splits, List.map_append, List.map_cons, List.nodup_middle, List.nodup_cons] at ids
  have elsewhere : ∀ manager' ∈ left ++ right, manager' ∈ m.singleTypeManagers ∧
      manager'.kvCacheGroupId ≠ manager.kvCacheGroupId := by
    intro manager' isOther
    refine ⟨?_, fun same => ids.1 ?_⟩
    · rw [splits]
      exact (List.perm_middle.mem_iff).mpr (List.mem_cons_of_mem _ isOther)
    · rw [← same, ← List.map_append]
      exact List.mem_map_of_mem isOther
  rw [holders, splits, holdersOf_append, holdersOf_cons, Multiset.count_add, Multiset.count_add,
    absent left fun manager' isLeft => elsewhere manager' (List.mem_append_left _ isLeft),
    absent right fun manager' isRight => elsewhere manager' (List.mem_append_right _ isRight)]
  omega

/-- A counted block of a group of full attention stands at the same index in all its tables. -/
theorem Arranged.getElem?_of_counted (arranged : m.Arranged config hasher)
    (isManager : manager ∈ m.singleTypeManagers) (isFull : manager.kvCacheSpec.attention = .full)
    {requestId other i : Nat} (atI : (manager.table requestId)[i]? = some b)
    (counted : (m.blockPool.blocks b).refCnt = manager.reqToBlocks.entries.length)
    {blocks : List Nat} (found : manager.reqToBlocks.get? other = some blocks) :
    blocks[i]? = some b := by
  have inTable := List.mem_of_getElem? atI
  have notNull : b ≠ nullBlock := by
    rintro rfl
    exact arranged.placed.solid (manager.kvCacheGroupId, i)
      ⟨manager, isManager, rfl, requestId, atI⟩ ((arranged.shaped.kinds isManager).mp isFull)
  have held : b ∈ m.holders := mem_holders_of_holds ⟨manager, isManager, inTable⟩
  have references := (arranged.ok.freeQueue.1 b notNull (arranged.ok.pool.held b held)).2
  have occurrences := arranged.count_holders notNull isManager inTable
  have all : manager.holders.count b = manager.reqToBlocks.entries.length := by omega
  have inBlocks := mem_of_count_holders
    (arranged.ok.distinct manager isManager) notNull all found
  obtain ⟨j, atJ⟩ := List.getElem?_of_mem inBlocks
  have isTable : manager.table other = blocks := by
    simp [table, Dict.getD, found]
  obtain ⟨-, rfl⟩ := arranged.place_unique notNull isManager isManager atI (isTable ▸ atJ)
  exact atJ

/-- If `get_num_common_prefix_blocks` returns `n` for a group of full attention, the first `n`
blocks of all its tables are the same, in the same positions. -/
theorem commonBlocks_shared [DecidableEq H] (free : ∀ h ∈ hasher, h.CollisionFree)
    (served : Served config hasher m) {requestId k n : Nat}
    (isManager : m.singleTypeManagers[k]? = some manager)
    (isFull : manager.kvCacheSpec.attention = .full)
    (counts : (m.getNumCommonPrefixBlocks requestId).1[k]? = some n) :
    n ≤ (manager.table requestId).length ∧
      ∀ other blocks, manager.reqToBlocks.get? other = some blocks →
        blocks.take n = (manager.table requestId).take n := by
  have inManagers := List.mem_of_getElem? isManager
  by_cases caching : m.enableCaching = true
  · have configured : config.enableCaching = true := by
      rw [← (served.ok free).2]
      exact caching
    have arranged := served.arranged configured free
    have isCount : n = countCommonBlocks m.blockPool
        (manager.withEntry requestId).reqToBlocks.entries.length (manager.table requestId) := by
      rw [getNumCommonPrefixBlocks, if_pos caching] at counts
      simp only [List.getElem?_map, isManager, Option.map_some, Option.some.injEq] at counts
      rw [← counts, SingleTypeKVCacheManager.getNumCommonPrefixBlocks, isFull]
      simp only [table_withEntry]
    have common : ∀ i < n, ∃ b, (manager.table requestId)[i]? = some b ∧
        ∀ other blocks, manager.reqToBlocks.get? other = some blocks → blocks[i]? = some b := by
      intro i inside
      rw [isCount] at inside
      obtain ⟨b, atI, counted⟩ :=
        refCnt_of_countCommonBlocks _ _ _ i inside
      rw [withEntry_of_mem (List.mem_of_getElem? atI)] at counted
      exact ⟨b, atI, fun other blocks found =>
        arranged.getElem?_of_counted inManagers isFull atI counted found⟩
    refine ⟨?_, fun other blocks found => List.ext_getElem? fun i => ?_⟩
    · by_contra beyond
      obtain ⟨b, atEnd, -⟩ := common (manager.table requestId).length (by omega)
      simp at atEnd
    · rw [List.getElem?_take, List.getElem?_take]
      split
      · rename_i inside
        obtain ⟨b, atI, everywhere⟩ := common i inside
        rw [everywhere other blocks found, atI]
      · rfl
  · rw [getNumCommonPrefixBlocks, if_neg caching] at counts
    simp only [List.getElem?_map, isManager, Option.map_some, Option.some.injEq] at counts
    subst counts
    exact ⟨Nat.zero_le _, fun _ _ _ => rfl⟩

end KVCacheManager

def promptRequest (requestId last : Nat) : Request ContentHash :=
  (Request.init { requestId := requestId, promptTokenIds := [1, 2, last],
                  samplingParams := some { maxTokens := 1 } }).hashNewFullBlocks
    (some (contentHasher 2))

def firstPromptArgs : KVCacheManager.SlotArgs ContentHash :=
  ⟨promptRequest 5 3, 3, 0, [[]], 0, false, 0⟩

def secondPromptArgs : KVCacheManager.SlotArgs ContentHash :=
  ⟨promptRequest 6 4, 1, 2, [[1]], 0, false, 0⟩

/-- The first request computes the block that the second one finds.  It is common to both. -/
theorem commonBlocks_shared_two :
    ∃ (m : KVCacheManager ContentHash)
      (manager : SingleTypeKVCacheManager) (blocks : List Nat),
      m.Served smallKVCacheConfig (some (contentHasher 2)) ∧
      m.singleTypeManagers[0]? = some manager ∧
      (m.getNumCommonPrefixBlocks 5).1[0]? = some 1 ∧
      manager.reqToBlocks.get? 6 = some blocks ∧
      blocks.take 1 = (manager.table 5).take 1 := by
  have free := contentHasher_free 2
  have hashed : ∀ requestId last,
      (promptRequest requestId last).Hashed (some (contentHasher 2)) := fun _ _ =>
    (Request.hashed_init _ _).hashNewFullBlocks
  have runs : ∃ m₀, (KVCacheManager.init smallKVCacheConfig).exec
        (.allocateSlots firstPromptArgs) = .ok m₀ ∧
      (∃ hit, m₀.getComputedBlocks (promptRequest 6 4) = .ok hit ∧ hit = ([[1]], 2)) ∧
      ∃ m, m₀.exec (.allocateSlots secondPromptArgs) = .ok m ∧
        (m.getNumCommonPrefixBlocks 5).1[0]? = some 1 ∧
        ∃ manager, m.singleTypeManagers[0]? = some manager ∧
          manager.kvCacheSpec.attention = .full ∧
          ∃ blocks, manager.reqToBlocks.get? 6 = some blocks ∧ True := by
    decide +kernel
  obtain ⟨m₀, first, ⟨_, computed, rfl⟩, m, second, counts, manager, isManager, isFull, blocks,
    hasTable, -⟩ := runs
  have served : m₀.Served smallKVCacheConfig (some (contentHasher 2)) :=
    .step (.allocateSlots firstPromptArgs) .init ⟨hashed 5 3, Or.inl rfl⟩ trivial first
  have served := served.step (.allocateSlots secondPromptArgs)
    ⟨hashed 6 4, Or.inr ⟨2, computed⟩⟩ trivial second
  have shared := KVCacheManager.commonBlocks_shared free served isManager isFull counts
  exact ⟨m, manager, blocks, served, isManager, counts, hasTable, shared.2 6 blocks hasTable⟩

end Kalypso.Engine
