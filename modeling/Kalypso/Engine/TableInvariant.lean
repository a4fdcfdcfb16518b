import Mathlib.Algebra.Order.Group.Multiset
import Kalypso.Lib.Update
import Kalypso.Engine.KVCacheManager

/-!
# What the operations of the KV-cache manager keep

The blocks in use are the entries of all block tables.  Every operation of a single manager is
specified with an arbitrary multiset of blocks that others use, so that the specifications
compose over the groups.
-/

set_option autoImplicit false

namespace Kalypso.Engine

open Kalypso.Lib BlockPool

/-! ## Block tables -/

namespace SingleTypeKVCacheManager

variable {H : Type} {manager manager' : SingleTypeKVCacheManager} {requestId : Nat}

def holders (manager : SingleTypeKVCacheManager) : Multiset Nat :=
  (manager.reqToBlocks.entries.map fun entry => (entry.2 : Multiset Nat)).sum

def Distinct (manager : SingleTypeKVCacheManager) : Prop :=
  ∀ requestId, DistinctBlocks (manager.table requestId)

theorem table_setTable (requestId other : Nat) (blocks : List Nat)
    (manager : SingleTypeKVCacheManager) :
    (manager.setTable requestId blocks).table other =
      if other = requestId then blocks else manager.table other := by
  simp only [table, setTable, Dict.getD, Dict.get?_set]
  split
  · rfl
  · rfl

theorem table_erase (requestId other : Nat) (manager : SingleTypeKVCacheManager)
    (numCached : Dict Nat Nat) :
    ({ manager with
        reqToBlocks := manager.reqToBlocks.erase requestId
        numCachedBlock := numCached } : SingleTypeKVCacheManager).table other =
      if other = requestId then [] else manager.table other := by
  simp only [table, Dict.getD, Dict.get?_erase]
  split
  · rfl
  · rfl

@[simp] theorem table_withEntry (requestId other : Nat) (manager : SingleTypeKVCacheManager) :
    (manager.withEntry requestId).table other = manager.table other := by
  rw [withEntry, table_setTable]
  split
  · rename_i same
    rw [same]
  · rfl

theorem withEntry_eq_iff :
    manager.withEntry requestId = manager ↔ manager.reqToBlocks.get? requestId ≠ none := by
  constructor
  · intro same absent
    have present : (manager.withEntry requestId).reqToBlocks.get? requestId ≠ none := by
      simp [withEntry, setTable]
    rw [same] at present
    exact present absent
  · intro present
    obtain ⟨blocks, found⟩ := Option.ne_none_iff_exists'.mp present
    have isTable : manager.table requestId = blocks := by simp [table, Dict.getD, found]
    rw [withEntry, setTable, isTable, Dict.set_self found]

theorem holders_setTable (requestId : Nat) (blocks : List Nat)
    (manager : SingleTypeKVCacheManager) :
    (manager.setTable requestId blocks).holders + (manager.table requestId : Multiset Nat) =
      manager.holders + (blocks : Multiset Nat) := by
  cases found : manager.reqToBlocks.get? requestId with
  | none =>
    have new := manager.reqToBlocks.sum_set_new
      (fun entry : Nat × List Nat => (entry.2 : Multiset Nat)) blocks found
    simp only [table, Dict.getD, found, Option.getD_none, Multiset.coe_nil, add_zero]
    exact new
  | some old =>
    have replaced := manager.reqToBlocks.sum_set_present
      (fun entry : Nat × List Nat => (entry.2 : Multiset Nat)) blocks found
    simp only [table, Dict.getD, found, Option.getD_some]
    exact replaced

theorem holders_withEntry (requestId : Nat) (manager : SingleTypeKVCacheManager) :
    (manager.withEntry requestId).holders = manager.holders :=
  add_right_cancel (holders_setTable requestId (manager.table requestId) manager)

theorem holders_erase (requestId : Nat) (manager : SingleTypeKVCacheManager)
    (numCached : Dict Nat Nat) :
    ({ manager with
        reqToBlocks := manager.reqToBlocks.erase requestId
        numCachedBlock := numCached } : SingleTypeKVCacheManager).holders +
        (manager.table requestId : Multiset Nat) = manager.holders := by
  cases found : manager.reqToBlocks.get? requestId with
  | none =>
    simp only [table, holders, Dict.getD, found, Option.getD_none, Multiset.coe_nil, add_zero,
      manager.reqToBlocks.erase_absent found]
  | some old =>
    have removed := manager.reqToBlocks.sum_erase_present
      (fun entry : Nat × List Nat => (entry.2 : Multiset Nat)) found
    simp only [table, Dict.getD, found, Option.getD_some]
    exact removed

theorem mem_holders_of_table {b : Nat} (member : b ∈ manager.table requestId) :
    b ∈ manager.holders := by
  have whole := holders_erase requestId manager manager.numCachedBlock
  rw [← whole]
  exact Multiset.mem_add.mpr (Or.inr member)

theorem mem_holders_iff {b : Nat} :
    b ∈ manager.holders ↔ ∃ requestId, b ∈ manager.table requestId := by
  constructor
  · intro member
    obtain ⟨⟨requestId, blocks⟩, isEntry, inBlocks⟩ := (mem_sum_map _ b _).mp member
    have found := (manager.reqToBlocks.get?_eq_some_iff requestId blocks).mpr isEntry
    refine ⟨requestId, ?_⟩
    simpa [table, Dict.getD, found] using inBlocks
  · rintro ⟨requestId, member⟩
    exact mem_holders_of_table member

theorem Distinct.setTable (distinct : manager.Distinct) {blocks : List Nat}
    (once : DistinctBlocks blocks) : (manager.setTable requestId blocks).Distinct := by
  intro other
  rw [table_setTable]
  split
  · exact once
  · exact distinct other

theorem Distinct.withEntry (distinct : manager.Distinct) (requestId : Nat) :
    (manager.withEntry requestId).Distinct := by
  intro other
  rw [table_withEntry]
  exact distinct other

end SingleTypeKVCacheManager

/-! ## One group -/

namespace SingleTypeKVCacheManager

/-- An operation on the table of one request leaves those of the others alone. -/
structure Frame (requestId : Nat) (manager manager' : SingleTypeKVCacheManager) : Prop where
  kvCacheSpec : manager'.kvCacheSpec = manager.kvCacheSpec
  blockSize : manager'.blockSize = manager.blockSize
  kvCacheGroupId : manager'.kvCacheGroupId = manager.kvCacheGroupId
  table : ∀ other, other ≠ requestId → manager'.table other = manager.table other

theorem Frame.refl (requestId : Nat) (manager : SingleTypeKVCacheManager) :
    Frame requestId manager manager :=
  ⟨rfl, rfl, rfl, fun _ _ => rfl⟩

theorem Frame.trans {requestId : Nat} {first second third : SingleTypeKVCacheManager}
    (frame : Frame requestId first second) (frame' : Frame requestId second third) :
    Frame requestId first third :=
  ⟨frame'.kvCacheSpec.trans frame.kvCacheSpec, frame'.blockSize.trans frame.blockSize,
    frame'.kvCacheGroupId.trans frame.kvCacheGroupId,
    fun other different => (frame'.table other different).trans (frame.table other different)⟩

theorem frame_setTable (requestId : Nat) (blocks : List Nat) (manager : SingleTypeKVCacheManager) :
    Frame requestId manager (manager.setTable requestId blocks) := by
  refine ⟨rfl, rfl, rfl, fun other different => ?_⟩
  rw [table_setTable, if_neg different]

theorem frame_withEntry (requestId : Nat) (manager : SingleTypeKVCacheManager) :
    Frame requestId manager (manager.withEntry requestId) :=
  frame_setTable requestId _ manager

end SingleTypeKVCacheManager

/-- An operation on the table of one request kept the pool consistent, whatever blocks others
use.  Only the blocks of `released` may have left the table, blocks in use keep their hashes,
and no flag changed. -/
structure Kept {H : Type} (requestId : Nat) (released : List Nat) (others : Multiset Nat)
    (pool : BlockPool H) (manager : SingleTypeKVCacheManager) (pool' : BlockPool H)
    (manager' : SingleTypeKVCacheManager) : Prop where
  ok : pool'.Ok (manager'.holders + others)
  distinct : manager'.Distinct
  frame : SingleTypeKVCacheManager.Frame requestId manager manager'
  retains : ∀ b ∈ manager.table requestId, b ∈ manager'.table requestId ∨ b ∈ released
  config : SameConfig pool pool'
  flags : pool'.view.kept = pool.view.kept
  hashes : ∀ b ∈ manager.holders + others, ∀ key,
    (pool.blocks b).blockHash = some key → (pool'.blocks b).blockHash = some key

def Keeps {H β : Type} (requestId : Nat) (released : SingleTypeKVCacheManager → List Nat)
    (f : BlockPool H → SingleTypeKVCacheManager →
      Except EngineError (β × BlockPool H × SingleTypeKVCacheManager)) : Prop :=
  ∀ pool manager others, pool.Ok (manager.holders + others) → manager.Distinct →
    Safely (fun (_, pool', manager') =>
      Kept requestId (released manager) others pool manager pool' manager') (f pool manager)

theorem Kept.refl {H : Type} {pool : BlockPool H} {manager : SingleTypeKVCacheManager}
    {others : Multiset Nat} {released : List Nat} (requestId : Nat)
    (ok : pool.Ok (manager.holders + others)) (distinct : manager.Distinct) :
    Kept requestId released others pool manager pool manager :=
  ⟨ok, distinct, .refl requestId manager, fun _ => Or.inl, .refl pool, rfl,
    fun _ _ _ isHashed => isHashed⟩

namespace SingleTypeKVCacheManager

variable {H : Type} {pool : BlockPool H}

theorem free_keeps (requestId : Nat) :
    Keeps (H := H) requestId (table requestId) (free requestId) := by
  intro pool manager others ok distinct
  have whole := holders_erase requestId manager (manager.numCachedBlock.erase requestId)
  rw [← whole, add_comm _ (manager.table requestId : Multiset Nat), add_assoc,
    ← Multiset.coe_reverse] at ok
  have same := freeBlocks_sameCache (manager.table requestId).reverse pool
  refine ⟨ok.freeBlocks ?_, ?_, ⟨rfl, rfl, rfl, ?_⟩, fun _ => Or.inr, same.toSameConfig,
    freeBlocks_kept _ pool, ?_⟩
  · rw [List.filter_reverse]
    exact List.nodup_reverse.mpr (distinct requestId)
  · intro other
    rw [table_erase]
    split
    · exact List.nodup_nil
    · exact distinct other
  · intro other different
    rw [table_erase, if_neg different]
  · intro b _ key isHashed
    rw [same.blockHash]
    exact isHashed

theorem set_multiset {b : Nat} (replacement : Nat) :
    ∀ (blocks : List Nat) (n : Nat), blocks[n]? = some b →
      (blocks.set n replacement : Multiset Nat) + {b} =
        (blocks : Multiset Nat) + {replacement} := by
  intro blocks
  induction blocks with
  | nil =>
    intro n found
    simp at found
  | cons head blocks ih =>
    intro n found
    cases n with
    | zero =>
      simp only [List.getElem?_cons_zero, Option.some.injEq] at found
      subst found
      rw [List.set_cons_zero, ← Multiset.cons_coe, ← Multiset.cons_coe,
        ← Multiset.singleton_add, ← Multiset.singleton_add]
      abel
    | succ n =>
      simp only [List.getElem?_cons_succ] at found
      rw [List.set_cons_succ, ← Multiset.cons_coe, ← Multiset.cons_coe, Multiset.cons_add,
        Multiset.cons_add, ih n found]

theorem distinctBlocks_set_null {blocks : List Nat} (once : DistinctBlocks blocks) (n : Nat) :
    DistinctBlocks (blocks.set n nullBlock) := by
  unfold DistinctBlocks at once ⊢
  refine once.sublist ?_
  induction blocks generalizing n with
  | nil => exact .slnil
  | cons head blocks ih =>
    cases n with
    | zero =>
      rw [List.set_cons_zero, List.filter_cons_of_neg (by simp)]
      exact (List.sublist_cons_self _ _).filter _
    | succ n =>
      rw [List.set_cons_succ]
      have tail : (blocks.filter fun b => decide (b ≠ nullBlock)).Nodup :=
        once.sublist ((List.sublist_cons_self _ _).filter _)
      by_cases isNull : head = nullBlock
      · rw [List.filter_cons_of_neg (by simpa using isNull),
          List.filter_cons_of_neg (by simpa using isNull)]
        exact ih tail n
      · rw [List.filter_cons_of_pos (by simpa using isNull),
          List.filter_cons_of_pos (by simpa using isNull)]
        exact (ih tail n).cons_cons _

theorem mem_set_or {b c : Nat} {blocks : List Nat} {n : Nat} (atN : blocks[n]? = some c)
    (member : b ∈ blocks) : b ∈ blocks.set n nullBlock ∨ b = c := by
  obtain ⟨i, atI⟩ := List.getElem?_of_mem member
  by_cases same : n = i
  · rw [← same, atN] at atI
    exact Or.inr (Option.some.inj atI).symm
  · rw [← List.getElem?_set_ne same] at atI
    exact Or.inl (List.mem_of_getElem? atI)

/-- The blocks that are removed from a table are replaced by null blocks; they are among the
first `n`. -/
theorem skipBlocks_spec (n : Nat) :
    ∀ blocks : List Nat, DistinctBlocks blocks →
      Safely (fun (removed, blocks') =>
        (∃ k, (removed : Multiset Nat) + (blocks' : Multiset Nat) =
          Multiset.replicate k nullBlock + (blocks : Multiset Nat)) ∧ DistinctBlocks blocks' ∧
        ∀ b ∈ blocks, b ∈ blocks' ∨ b ∈ blocks.take n)
        (skipBlocks n blocks) := by
  induction n with
  | zero =>
    intro blocks once
    exact ⟨⟨0, by simp⟩, once, fun _ => Or.inl⟩
  | succ n ih =>
    intro blocks once
    rw [skipBlocks]
    split
    · exact id
    · rename_i b atN
      split
      · exact ⟨⟨0, by simp⟩, once, fun _ => Or.inl⟩
      · refine (ih _ (distinctBlocks_set_null once n)).bind ?_
        rintro ⟨rest, after⟩ ⟨⟨k, conserved⟩, onceAfter, stays⟩
        refine ⟨⟨k + 1, ?_⟩, onceAfter, ?_⟩
        · have replaced := set_multiset nullBlock blocks n atN
          rw [← Multiset.cons_coe, ← Multiset.singleton_add, add_assoc, conserved,
            add_left_comm, add_comm ({b} : Multiset Nat), replaced, Multiset.replicate_succ,
            ← Multiset.singleton_add]
          abel
        · intro x member
          have grown : blocks.take (n + 1) = blocks.take n ++ [b] := by
            rw [List.take_add_one, atN, Option.toList_some]
          rw [grown, List.mem_append, List.mem_singleton]
          rcases mem_set_or atN member with member | isB
          · rcases stays x member with inAfter | inTake
            · exact Or.inl inAfter
            · rw [List.take_set_of_le (Nat.le_refl n)] at inTake
              exact Or.inr (Or.inl inTake)
          · exact Or.inr (Or.inr isB)

/-- Blocks that are in use at most once each and are not null are distinct. -/
theorem distinct_of_le {removed blocks : List Nat} (once : DistinctBlocks blocks)
    {k : Nat} {kept : Multiset Nat}
    (conserved : (removed : Multiset Nat) + kept =
      Multiset.replicate k nullBlock + (blocks : Multiset Nat)) :
    (removed.filter fun b => b ≠ nullBlock).Nodup := by
  rw [List.nodup_iff_count_le_one]
  intro b
  by_cases isNull : b = nullBlock
  · rw [isNull, List.count_eq_zero_of_not_mem (by simp)]
    exact Nat.zero_le 1
  · have atMost := List.nodup_iff_count_le_one.mp once b
    have counts := congrArg (Multiset.count b) conserved
    rw [Multiset.count_add, Multiset.count_add, Multiset.count_replicate,
      if_neg (Ne.symm isNull), Multiset.coe_count, Multiset.coe_count] at counts
    rw [List.count_filter (by simpa using isNull)] at atMost ⊢
    omega

def outOfWindow (requestId : Nat) (numComputedTokens : Int) (manager : SingleTypeKVCacheManager) :
    List Nat :=
  (manager.table requestId).take
    (manager.getNumSkippedTokens numComputedTokens / manager.blockSize).toNat

theorem removeSkippedBlocks_sameCache (requestId : Nat) (numComputedTokens : Int)
    (pool : BlockPool H) (manager : SingleTypeKVCacheManager) :
    Gives (fun (_, pool', _) => SameCache pool pool')
      (removeSkippedBlocks requestId numComputedTokens pool manager) := by
  unfold removeSkippedBlocks
  dsimp only
  split
  · exact .refl pool
  · cases skipBlocks (manager.getNumSkippedTokens numComputedTokens / manager.blockSize).toNat
      (manager.table requestId) with
    | error e => exact trivial
    | ok removed => exact freeBlocks_sameCache removed.1 pool

theorem removeSkippedBlocks_keeps (requestId : Nat) (numComputedTokens : Int) :
    Keeps (H := H) requestId (outOfWindow requestId numComputedTokens)
      (removeSkippedBlocks requestId numComputedTokens) := by
  intro pool manager others ok distinct
  unfold removeSkippedBlocks
  dsimp only
  split
  · exact .refl requestId ok distinct
  · refine (skipBlocks_spec _ _ (distinct requestId)).bind ?_
    rintro ⟨removed, blocks⟩ ⟨⟨k, conserved⟩, once, stays⟩
    have replaced := holders_setTable requestId blocks manager
    have moved : (removed : Multiset Nat) + ((manager.setTable requestId blocks).holders + others) =
        Multiset.replicate k nullBlock + (manager.holders + others) := by
      have total := congrArg (· + (removed : Multiset Nat) + others) replaced
      simp only [add_assoc] at total
      rw [add_left_comm (blocks : Multiset Nat), ← add_assoc (removed : Multiset Nat)
        (blocks : Multiset Nat), conserved] at total
      refine add_right_cancel (b := (manager.table requestId : Multiset Nat)) ?_
      calc _ = (manager.setTable requestId blocks).holders +
            ((manager.table requestId : Multiset Nat) + ((removed : Multiset Nat) + others)) := by
            abel
        _ = _ := total
        _ = _ := by abel
    have all := ok.add_null k
    rw [← moved] at all
    have same := freeBlocks_sameCache removed pool
    refine ⟨all.freeBlocks (distinct_of_le (distinct requestId) conserved),
      distinct.setTable once, frame_setTable requestId blocks manager, ?_, same.toSameConfig,
      freeBlocks_kept removed pool, ?_⟩
    · rw [table_setTable, if_pos rfl]
      exact stays
    · intro b _ key isHashed
      rw [same.blockHash]
      exact isHashed

theorem distinctBlocks_append {blocks new : List Nat} (once : DistinctBlocks blocks)
    (distinct : new.Nodup) (fresh : ∀ b ∈ new, b ∉ blocks) : DistinctBlocks (blocks ++ new) := by
  unfold DistinctBlocks at once ⊢
  rw [List.filter_append]
  refine List.Nodup.append once (distinct.filter _) ?_
  intro b old isNew
  exact fresh b (List.mem_of_mem_filter isNew) (List.mem_of_mem_filter old)

variable [DecidableEq H]

theorem allocateNewBlocks_keeps (requestId : Nat) (numTokens : Int) :
    Keeps (H := H) requestId (fun _ => []) (allocateNewBlocks requestId numTokens) := by
  intro pool manager others ok distinct
  unfold allocateNewBlocks
  dsimp only
  split
  · refine ⟨?_, distinct.withEntry requestId, frame_withEntry requestId manager, ?_,
      .refl pool, rfl,
      fun _ _ _ isHashed => isHashed⟩
    · rw [holders_withEntry]
      exact ok
    · rw [table_withEntry]
      exact fun _ => Or.inl
  · have takes := ok.getNewBlocks_meets
      (cdiv (manager.numTokensWithSpeculative numTokens) manager.blockSize -
        (manager.table requestId).length).toNat
    refine Meets.bind (takes.weaken fun e isShort => ?_) ?_
    · rw [isShort]
      exact id
    · rintro ⟨new, after⟩ ⟨okAfter, config, flags, once, fresh, same⟩
      have replaced := holders_setTable requestId (manager.table requestId ++ new) manager
      have grown : (manager.setTable requestId (manager.table requestId ++ new)).holders =
          (new : Multiset Nat) + manager.holders := by
        refine add_right_cancel (b := (manager.table requestId : Multiset Nat)) ?_
        rw [replaced, ← Multiset.coe_add]
        abel
      refine ⟨?_, distinct.setTable (distinctBlocks_append (distinct requestId) once ?_),
        frame_setTable requestId _ manager, ?_, config, flags, ?_⟩
      · rw [grown, add_assoc]
        exact okAfter
      · intro b isNew inTable
        exact (fresh b isNew).2.2.1
          (Multiset.mem_add.mpr (Or.inl (mem_holders_of_table inTable)))
      · intro b inTable
        rw [table_setTable, if_pos rfl]
        exact Or.inl (List.mem_append_left new inTable)
      · intro b inUse key isHashed
        rw [same b fun isNew => (fresh b isNew).2.2.1 inUse]
        exact isHashed

theorem cacheBlocks_keeps (request : Request H) (numTokens : Int) :
    Keeps request.requestId (fun _ => []) (cacheBlocks request numTokens) := by
  intro pool manager others ok distinct
  unfold cacheBlocks
  split
  · exact id
  · dsimp only
    split
    · exact .refl request.requestId ok distinct
    · have inUse : ∀ b ∈ manager.table request.requestId, b ∈ manager.holders + others :=
        fun b member => Multiset.mem_add.mpr (Or.inl (mem_holders_of_table member))
      refine (ok.cacheFullBlocks inUse).bind ?_
      rintro after ⟨okAfter, same, grows, -⟩
      refine ⟨?_, distinct.withEntry request.requestId,
        ⟨rfl, rfl, rfl, (frame_withEntry request.requestId manager).table⟩, ?_, same.toSameConfig,
        congrArg RefPool.kept same.view, fun b _ => grows b⟩
      · rw [show manager.holders = (manager.withEntry request.requestId).holders from
          (holders_withEntry request.requestId manager).symm] at okAfter
        exact okAfter
      · intro b inTable
        rw [← table_withEntry request.requestId] at inTable
        exact Or.inl inTable

end SingleTypeKVCacheManager

/-! ## All groups -/

/-- A property of the pool that every step keeps, and what it establishes for the manager it works
on. -/
theorem forEachManager_each {H β : Type} {E : EngineError → Prop} {P : BlockPool H → Prop}
    {Q R : SingleTypeKVCacheManager → Prop}
    {f : BlockPool H → SingleTypeKVCacheManager →
      Except EngineError (β × BlockPool H × SingleTypeKVCacheManager)}
    (step : ∀ pool manager, P pool → Q manager →
      Meets E (fun (_, pool', manager') => P pool' ∧ R manager') (f pool manager)) :
    ∀ (managers : List SingleTypeKVCacheManager) (pool : BlockPool H), P pool →
      (∀ manager ∈ managers, Q manager) →
        Meets E (fun (_, pool', managers') => P pool' ∧ ∀ manager ∈ managers', R manager)
          (forEachManager f pool managers) := by
  intro managers
  induction managers with
  | nil => exact fun _ atPool _ => ⟨atPool, List.forall_mem_nil _⟩
  | cons manager managers ih =>
    intro pool atPool each
    obtain ⟨atHead, atRest⟩ := List.forall_mem_cons.mp each
    rw [forEachManager]
    refine (step pool manager atPool atHead).bind ?_
    rintro ⟨_, middle, _⟩ ⟨atMiddle, first⟩
    refine (ih middle atMiddle atRest).bind ?_
    rintro ⟨_, last, _⟩ ⟨atLast, rest⟩
    exact ⟨atLast, List.forall_mem_cons.mpr ⟨first, rest⟩⟩

theorem forEachManager_managers {H β : Type} {E : EngineError → Prop}
    {Q : SingleTypeKVCacheManager → Prop}
    {f : BlockPool H → SingleTypeKVCacheManager →
      Except EngineError (β × BlockPool H × SingleTypeKVCacheManager)}
    (step : ∀ pool manager, Meets E (fun (_, _, manager') => Q manager') (f pool manager))
    (managers : List SingleTypeKVCacheManager) (pool : BlockPool H) :
    Meets E (fun (_, _, managers') => ∀ manager ∈ managers', Q manager)
      (forEachManager f pool managers) := by
  have each := forEachManager_each (P := fun _ => True) (Q := fun _ => True)
    (fun pool manager _ _ => (step pool manager).mono fun _ atManager => ⟨trivial, atManager⟩)
    managers pool trivial fun _ _ => trivial
  exact each.mono fun _ established => established.2

open SingleTypeKVCacheManager

def holdersOf (managers : List SingleTypeKVCacheManager) : Multiset Nat :=
  (managers.map holders).sum

@[simp] theorem holdersOf_nil : holdersOf [] = 0 := rfl

@[simp] theorem holdersOf_cons (manager : SingleTypeKVCacheManager)
    (managers : List SingleTypeKVCacheManager) :
    holdersOf (manager :: managers) = manager.holders + holdersOf managers := by
  simp [holdersOf]

theorem holdersOf_append (left right : List SingleTypeKVCacheManager) :
    holdersOf (left ++ right) = holdersOf left + holdersOf right := by
  simp [holdersOf]

theorem mem_holdersOf {managers : List SingleTypeKVCacheManager} {b : Nat} :
    b ∈ holdersOf managers ↔ ∃ manager ∈ managers, b ∈ manager.holders :=
  mem_sum_map holders b managers

def HeldByOther (requestId : Nat) (managers : List SingleTypeKVCacheManager) (b : Nat) : Prop :=
  ∃ other, other ≠ requestId ∧ ∃ manager ∈ managers, b ∈ manager.table other

/-- `Kept` for all groups.  Only the blocks of other requests are sure to stay in use. -/
structure KeptAll {H : Type} (requestId : Nat) (released : List Nat) (others : Multiset Nat)
    (pool : BlockPool H) (managers : List SingleTypeKVCacheManager) (pool' : BlockPool H)
    (managers' : List SingleTypeKVCacheManager) : Prop where
  ok : pool'.Ok (holdersOf managers' + others)
  distinct : ∀ manager ∈ managers', manager.Distinct
  frame : List.Forall₂ (SingleTypeKVCacheManager.Frame requestId) managers managers'
  retains : ∀ b, ∀ manager ∈ managers, b ∈ manager.table requestId →
    (∃ manager ∈ managers', b ∈ manager.table requestId) ∨ b ∈ released
  config : SameConfig pool pool'
  flags : pool'.view.kept = pool.view.kept
  hashes : ∀ b, HeldByOther requestId managers b ∨ b ∈ others → ∀ key,
    (pool.blocks b).blockHash = some key → (pool'.blocks b).blockHash = some key

/-- The tables of a group that is done count as used by others for the next one. -/
theorem forEachManager_keeps {H β : Type} {requestId : Nat}
    {released : SingleTypeKVCacheManager → List Nat}
    {f : BlockPool H → SingleTypeKVCacheManager →
      Except EngineError (β × BlockPool H × SingleTypeKVCacheManager)}
    (keeps : Keeps requestId released f) :
    ∀ (managers : List SingleTypeKVCacheManager) (pool : BlockPool H) (others : Multiset Nat),
      pool.Ok (holdersOf managers + others) → (∀ manager ∈ managers, manager.Distinct) →
        Safely (fun (_, pool', managers') =>
          KeptAll requestId (managers.flatMap released) others pool managers pool' managers')
          (forEachManager f pool managers) := by
  intro managers
  induction managers with
  | nil =>
    intro pool others ok distinct
    exact ⟨ok, distinct, .nil, fun _ _ isManager => (nomatch isManager), .refl pool, rfl,
      fun _ _ _ isHashed => isHashed⟩
  | cons manager managers ih =>
    intro pool others ok distinct
    rw [holdersOf_cons, add_assoc] at ok
    rw [forEachManager]
    refine (keeps _ _ _ ok (distinct manager List.mem_cons_self)).bind ?_
    rintro ⟨out, middle, manager'⟩ first
    have okMiddle := first.ok
    rw [add_left_comm] at okMiddle
    refine (ih _ _ okMiddle fun m member => distinct m (List.mem_cons_of_mem _ member)).bind ?_
    rintro ⟨outs, last, managers'⟩ rest
    refine ⟨?_, ?_, .cons first.frame rest.frame, ?_, first.config.trans rest.config,
      rest.flags.trans first.flags, ?_⟩
    · have okLast := rest.ok
      rw [add_left_comm, ← add_assoc] at okLast
      rw [holdersOf_cons]
      exact okLast
    · intro m member
      rcases List.mem_cons.mp member with rfl | member
      · exact first.distinct
      · exact rest.distinct m member
    · intro b m isManager inTable
      rw [List.flatMap_cons, List.mem_append]
      rcases List.mem_cons.mp isManager with rfl | isManager
      · rcases first.retains b inTable with stays | left
        · exact Or.inl ⟨manager', List.mem_cons_self, stays⟩
        · exact Or.inr (Or.inl left)
      · rcases rest.retains b m isManager inTable with ⟨m', isManager', stays⟩ | left
        · exact Or.inl ⟨m', List.mem_cons_of_mem _ isManager', stays⟩
        · exact Or.inr (Or.inr left)
    · intro b inUse key isHashed
      rcases inUse with ⟨other, different, m, isManager, inTable⟩ | isOther
      · rcases List.mem_cons.mp isManager with rfl | isManager
        · have before := mem_holders_of_table inTable
          rw [← first.frame.table other different] at inTable
          have after := mem_holders_of_table inTable
          refine rest.hashes b (Or.inr (Multiset.mem_add.mpr (Or.inl after))) key ?_
          exact first.hashes b (Multiset.mem_add.mpr (Or.inl before)) key isHashed
        · refine rest.hashes b (Or.inl ⟨other, different, m, isManager, inTable⟩) key ?_
          refine first.hashes b (Multiset.mem_add.mpr (Or.inr (Multiset.mem_add.mpr
            (Or.inl (mem_holdersOf.mpr ⟨m, isManager, ?_⟩))))) key isHashed
          exact mem_holders_of_table inTable
      · refine rest.hashes b (Or.inr (Multiset.mem_add.mpr (Or.inr isOther))) key ?_
        exact first.hashes b (Multiset.mem_add.mpr (Or.inr (Multiset.mem_add.mpr
          (Or.inr isOther)))) key isHashed

end Kalypso.Engine
