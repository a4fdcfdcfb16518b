import Kalypso.Engine.PoolRuns

/-!
# The places of blocks

A block in use has one place: it stands in the tables of one group only, and in all of them at the
same index.  A new block gets its place from the table it is appended to.  A block that is found in
the prefix cache already has one, given by its hash: the hash of a block determines how many blocks
precede it.  Placeholders are exempt; the tables of full attention have none.
-/

set_option autoImplicit false

namespace Kalypso.Engine

open Kalypso.Lib BlockPool
open SingleTypeKVCacheManager

variable {H : Type}

/-! ## The place of a hash -/

def HashPlace (hasher : Option (BlockHasher H)) (blockHash : List H) (i : Nat) : Prop :=
  ∃ h ∈ hasher, ∃ hashes scale, h.Chain hashes ∧ 0 < scale ∧ i * scale + scale ≤ hashes.length ∧
    blockHash = (hashes.drop (i * scale)).take scale

variable {hasher : Option (BlockHasher H)} {blockHash : List H} {p : Nat × Nat}

theorem HashPlace.unique (free : ∀ h ∈ hasher, h.CollisionFree) {i j : Nat}
    (atI : HashPlace hasher blockHash i) (atJ : HashPlace hasher blockHash j) : i = j := by
  obtain ⟨h, isHasher, hashes, scale, chain, positive, inside, rfl⟩ := atI
  obtain ⟨h', isHasher', hashes', scale', chain', positive', inside', same⟩ := atJ
  obtain rfl := Option.mem_unique isHasher isHasher'
  have sameScale : scale = scale' := by
    have lengths := congrArg List.length same
    rw [List.length_take, List.length_take, List.length_drop, List.length_drop] at lengths
    omega
  subst sameScale
  have first : hashes[i * scale]? = hashes'[j * scale]? := by
    have heads := congrArg (fun list => list[0]?) same
    simpa [List.getElem?_take, positive] using heads
  have isHash : hashes[i * scale]? = some (hashes.get ⟨i * scale, by omega⟩) :=
    List.getElem?_eq_getElem (by omega)
  have places := (free h isHasher).place chain chain' isHash (first ▸ isHash)
  exact Nat.eq_of_mul_eq_mul_right positive places

theorem groupBlockHashes_getElem? {pool : BlockPool H} {blockSize : Nat} {hashes : List H}
    {groupHashes : List (List H)}
    (merged : pool.groupBlockHashes blockSize hashes = .ok groupHashes) {i : Nat}
    (atI : groupHashes[i]? = some blockHash) :
    ∃ scale, 0 < scale ∧ scale * pool.hashBlockSize = blockSize ∧
      i * scale + scale ≤ hashes.length ∧ blockHash = (hashes.drop (i * scale)).take scale := by
  unfold groupBlockHashes at merged
  split at merged
  · rename_i sameSize
    cases merged
    rw [List.getElem?_map, Option.map_eq_some_iff] at atI
    obtain ⟨hash, found, rfl⟩ := atI
    obtain ⟨inside, rfl⟩ := List.getElem?_eq_some_iff.mp found
    refine ⟨1, Nat.one_pos, (Nat.one_mul _).trans sameSize.symm, by omega, ?_⟩
    rw [Nat.mul_one, List.take_one, List.head?_drop, found, Option.toList_some]
  · split at merged
    · cases merged
    · rename_i multiple
      cases merged
      rw [mergeBlockHashes, List.getElem?_map, Option.map_eq_some_iff] at atI
      obtain ⟨k, found, rfl⟩ := atI
      obtain ⟨inside, isIndex⟩ := List.getElem?_eq_some_iff.mp found
      rw [List.length_range] at inside
      rw [List.getElem_range] at isIndex
      subst isIndex
      have whole := Nat.div_mul_cancel (Nat.dvd_of_mod_eq_zero (not_not.mp multiple))
      generalize blockSize / pool.hashBlockSize = scale at inside whole ⊢
      have positive : 0 < scale := by
        rcases Nat.eq_zero_or_pos scale with zero | positive
        · rw [zero, Nat.div_zero] at inside
          omega
        · exact positive
      have bound : (i + 1) * scale ≤ hashes.length :=
        (Nat.le_div_iff_mul_le positive).mp inside
      rw [Nat.add_mul, Nat.one_mul] at bound
      exact ⟨scale, positive, whole, bound, rfl⟩

theorem hashPlace_of_merged {request : Request H} (hashed : request.Hashed hasher)
    {pool : BlockPool H} {blockSize : Nat} {groupHashes : List (List H)}
    (merged : pool.groupBlockHashes blockSize request.blockHashes = .ok groupHashes) {i : Nat}
    (atI : groupHashes[i]? = some blockHash) : HashPlace hasher blockHash i := by
  obtain ⟨scale, positive, -, inside, isHash⟩ := groupBlockHashes_getElem? merged atI
  cases hasher with
  | none =>
    have empty : request.blockHashes = [] := hashed
    rw [empty, List.length_nil] at inside
    omega
  | some hasher => exact ⟨hasher, rfl, request.blockHashes, scale, hashed, positive, inside, isHash⟩

/-- The key belongs to a block at the place: the id of its group and an index. -/
def KeyPlace (hasher : Option (BlockHasher H)) (key : BlockHashWithGroupId H) (p : Nat × Nat) :
    Prop :=
  key.groupId = p.1 ∧ HashPlace hasher key.blockHash p.2

theorem KeyPlace.unique (free : ∀ h ∈ hasher, h.CollisionFree) {key : BlockHashWithGroupId H}
    {p p' : Nat × Nat} (first : KeyPlace hasher key p) (second : KeyPlace hasher key p') : p = p' :=
  Prod.ext (first.1.symm.trans second.1) (first.2.unique free second.2)

/-! ## Where blocks stand -/

def StandsAt (managers : List SingleTypeKVCacheManager) (b : Nat) (p : Nat × Nat) : Prop :=
  ∃ manager ∈ managers, manager.kvCacheGroupId = p.1 ∧
    ∃ requestId, (manager.table requestId)[p.2]? = some b

theorem standsAt_cons {manager : SingleTypeKVCacheManager}
    {managers : List SingleTypeKVCacheManager} {b : Nat} :
    StandsAt (manager :: managers) b p ↔ StandsAt [manager] b p ∨ StandsAt managers b p := by
  simp only [StandsAt, List.mem_cons, List.not_mem_nil, or_false, exists_eq_or_imp, exists_eq_left]

theorem StandsAt.mem_holdersOf {managers : List SingleTypeKVCacheManager} {b : Nat}
    (stands : StandsAt managers b p) : b ∈ holdersOf managers := by
  obtain ⟨manager, isManager, -, requestId, atIndex⟩ := stands
  exact Kalypso.Engine.mem_holdersOf.mpr ⟨manager, isManager,
    mem_holders_of_table (List.mem_of_getElem? atIndex)⟩

theorem StandsAt.of_tables {manager manager' : SingleTypeKVCacheManager} {b : Nat}
    (stands : StandsAt [manager'] b p)
    (sameGroup : manager'.kvCacheGroupId = manager.kvCacheGroupId)
    (tables : ∀ requestId, (manager'.table requestId)[p.2]? = some b →
      (manager.table requestId)[p.2]? = some b) : StandsAt [manager] b p := by
  obtain ⟨_, isManager, inGroup, requestId, atIndex⟩ := stands
  obtain rfl := List.mem_singleton.mp isManager
  exact ⟨manager, List.mem_singleton_self _, sameGroup.symm.trans inGroup, requestId,
    tables requestId atIndex⟩

/-- Every block stands at one place, that of its hash if it has one.  Placeholders stand in no
table of full attention and are not cached for it. -/
structure Placed (hasher : Option (BlockHasher H)) (isFull : Nat → Prop) (pool : BlockPool H)
    (stands : Nat → Nat × Nat → Prop) : Prop where
  once : ∀ b p p', b ≠ nullBlock → stands b p → stands b p' → p = p'
  hashed : ∀ b p key, b ≠ nullBlock → stands b p → (pool.blocks b).blockHash = some key →
    KeyPlace hasher key p
  solid : ∀ p, stands nullBlock p → ¬ isFull p.1
  nullHash : ∀ key, (pool.blocks nullBlock).blockHash = some key → ¬ isFull key.groupId

section

variable {hasher : Option (BlockHasher H)} {isFull : Nat → Prop} {pool pool' : BlockPool H}
  {stands stands' : Nat → Nat × Nat → Prop}

theorem Placed.mono (placed : Placed hasher isFull pool stands)
    (fewer : ∀ b p, b ≠ nullBlock → stands' b p → stands b p)
    (solid : ∀ p, stands' nullBlock p → ¬ isFull p.1)
    (hashes : ∀ b key, (pool'.blocks b).blockHash = some key →
      (pool.blocks b).blockHash = some key) : Placed hasher isFull pool' stands' where
  once := fun b p p' notNull atP atP' =>
    placed.once b p p' notNull (fewer b p notNull atP) (fewer b p' notNull atP')
  hashed := fun b p key notNull atP isHashed =>
    placed.hashed b p key notNull (fewer b p notNull atP) (hashes b key isHashed)
  solid := solid
  nullHash := fun key isHashed => placed.nullHash key (hashes nullBlock key isHashed)

theorem Placed.of_subset (placed : Placed hasher isFull pool stands)
    (fewer : ∀ b p, stands' b p → stands b p)
    (hashes : ∀ b key, (pool'.blocks b).blockHash = some key →
      (pool.blocks b).blockHash = some key) : Placed hasher isFull pool' stands' :=
  placed.mono (fun b p _ => fewer b p) (fun p atP => placed.solid p (fewer nullBlock p atP)) hashes

/-- The block was found in the prefix cache for the place, or is a placeholder that may stand
there. -/
def FoundFor (hasher : Option (BlockHasher H)) (isFull : Nat → Prop) (pool : BlockPool H) (b : Nat)
    (p : Nat × Nat) : Prop :=
  (b ≠ nullBlock → ∃ key, (pool.blocks b).blockHash = some key ∧ KeyPlace hasher key p) ∧
    (b = nullBlock → ¬ isFull p.1)

theorem FoundFor.of_sameCache {b : Nat} {p : Nat × Nat} (found : FoundFor hasher isFull pool b p)
    (same : SameCache pool pool') : FoundFor hasher isFull pool' b p := by
  refine ⟨fun notNull => ?_, found.2⟩
  obtain ⟨key, isHashed, place⟩ := found.1 notNull
  exact ⟨key, (same.blockHash b).trans isHashed, place⟩

/-- A block that was found for a place can be put there: wherever it stands already is the same
place, as its hash has only one. -/
theorem Placed.of_found (placed : Placed hasher isFull pool stands)
    (free : ∀ h ∈ hasher, h.CollisionFree)
    (origin : ∀ b p, stands' b p → stands b p ∨ FoundFor hasher isFull pool b p) :
    Placed hasher isFull pool stands' := by
  have hashed : ∀ b p key, b ≠ nullBlock → stands' b p → (pool.blocks b).blockHash = some key →
      KeyPlace hasher key p := by
    intro b p key notNull atP isHashed
    rcases origin b p atP with old | found
    · exact placed.hashed b p key notNull old isHashed
    · obtain ⟨key', isHashed', place⟩ := found.1 notNull
      cases isHashed.symm.trans isHashed'
      exact place
  refine ⟨fun b p p' notNull atP atP' => ?_, hashed, fun p atP => ?_, placed.nullHash⟩
  · have same : ∀ key, (pool.blocks b).blockHash = some key → p = p' := fun key isHashed =>
      (hashed b p key notNull atP isHashed).unique free (hashed b p' key notNull atP' isHashed)
    rcases origin b p atP with old | found
    · rcases origin b p' atP' with old' | found'
      · exact placed.once b p p' notNull old old'
      · obtain ⟨key, isHashed, -⟩ := found'.1 notNull
        exact same key isHashed
    · obtain ⟨key, isHashed, -⟩ := found.1 notNull
      exact same key isHashed
  · exact (origin nullBlock p atP).elim (placed.solid p) fun found => found.2 rfl

end

/-- An operation on one group keeps the blocks placed, wherever those of the other groups stand. -/
def KeepsPlaces {β : Type} (hasher : Option (BlockHasher H)) (isFull : Nat → Prop)
    (f : BlockPool H → SingleTypeKVCacheManager →
      Except EngineError (β × BlockPool H × SingleTypeKVCacheManager)) : Prop :=
  ∀ pool manager others (stands : Nat → Nat × Nat → Prop),
    pool.Ok (manager.holders + others) → manager.Distinct → pool.enableCaching = true →
    (manager.kvCacheSpec.attention = .full ↔ isFull manager.kvCacheGroupId) →
    (∀ b p, stands b p → b ∈ others) →
    Placed hasher isFull pool (fun b p => StandsAt [manager] b p ∨ stands b p) →
      Meets (fun _ => True) (fun (_, pool', manager') =>
          Placed hasher isFull pool' fun b p => StandsAt [manager'] b p ∨ stands b p)
        (f pool manager)

/-- What the groups that are done hold counts as held elsewhere for the next one. -/
theorem forEachManager_places {β : Type} {isFull : Nat → Prop} {requestId : Nat}
    {released : SingleTypeKVCacheManager → List Nat} {f : BlockPool H → SingleTypeKVCacheManager →
      Except EngineError (β × BlockPool H × SingleTypeKVCacheManager)}
    (keeps : Keeps requestId released f) (places : KeepsPlaces hasher isFull f) :
    ∀ (managers : List SingleTypeKVCacheManager) (pool : BlockPool H) (others : Multiset Nat)
      (stands : Nat → Nat × Nat → Prop),
      pool.Ok (holdersOf managers + others) → (∀ manager ∈ managers, manager.Distinct) →
        pool.enableCaching = true →
        (∀ manager ∈ managers,
          manager.kvCacheSpec.attention = .full ↔ isFull manager.kvCacheGroupId) →
        (∀ b p, stands b p → b ∈ others) →
        Placed hasher isFull pool (fun b p => StandsAt managers b p ∨ stands b p) →
          Gives (fun (_, pool', managers') =>
              Placed hasher isFull pool' fun b p => StandsAt managers' b p ∨ stands b p)
            (forEachManager f pool managers) := by
  intro managers
  induction managers with
  | nil => exact fun _ _ _ _ _ _ _ _ placed => placed
  | cons manager managers ih =>
    intro pool others stands ok distinct caching kinds elsewhere placed
    rw [holdersOf_cons, add_assoc] at ok
    rw [forEachManager]
    have kept := keeps _ _ _ ok (distinct manager List.mem_cons_self)
    have first := places pool manager (holdersOf managers + others)
      (fun b p => StandsAt managers b p ∨ stands b p) ok (distinct manager List.mem_cons_self)
      caching (kinds manager List.mem_cons_self) ?_ ?_
    · refine (first.and kept).bind ?_
      rintro ⟨out, middle, manager'⟩ ⟨placedMiddle, kept⟩
      have okMiddle := kept.ok
      rw [add_left_comm] at okMiddle
      have rest := ih middle (manager'.holders + others)
        (fun b p => StandsAt [manager'] b p ∨ stands b p) okMiddle
        (fun m member => distinct m (List.mem_cons_of_mem _ member))
        (kept.config.enableCaching.trans caching)
        (fun m member => kinds m (List.mem_cons_of_mem _ member)) ?_ ?_
      · refine rest.bind ?_
        rintro ⟨outs, last, managers'⟩ placedLast
        refine placedLast.of_subset (fun b p atP => ?_) (fun _ _ => id)
        rw [standsAt_cons] at atP
        tauto
      · rintro b p (here | there)
        · have inTable := here.mem_holdersOf
          rw [holdersOf_cons, holdersOf_nil, add_zero] at inTable
          exact Multiset.mem_add.mpr (Or.inl inTable)
        · exact Multiset.mem_add.mpr (Or.inr (elsewhere b p there))
      · refine placedMiddle.of_subset (fun b p atP => ?_) (fun _ _ => id)
        tauto
    · rintro b p (here | there)
      · exact Multiset.mem_add.mpr (Or.inl here.mem_holdersOf)
      · exact Multiset.mem_add.mpr (Or.inr (elsewhere b p there))
    · refine placed.of_subset (fun b p atP => ?_) (fun _ _ => id)
      rw [standsAt_cons]
      tauto

/-! ## Operations on one group -/

namespace SingleTypeKVCacheManager

variable {hasher : Option (BlockHasher H)} {isFull : Nat → Prop}

theorem free_places (requestId : Nat) : KeepsPlaces hasher isFull (free (H := H) requestId) := by
  intro pool manager others stands _ _ _ _ _ placed
  have same := freeBlocks_sameCache (manager.table requestId).reverse pool
  refine placed.of_subset
    (fun b p atP => atP.imp_left fun here => here.of_tables rfl fun other atIndex => ?_)
    fun b key isHashed => (same.blockHash b).symm.trans isHashed
  rw [table_erase] at atIndex
  split at atIndex
  · cases atIndex
  · exact atIndex

theorem skipBlocks_getElem? (n : Nat) :
    ∀ blocks : List Nat, Gives (fun (_, blocks') =>
      ∀ i b : Nat, b ≠ nullBlock → blocks'[i]? = some b → blocks[i]? = some b)
      (skipBlocks n blocks) := by
  induction n with
  | zero => exact fun blocks i b _ => id
  | succ n ih =>
    intro blocks
    rw [skipBlocks]
    split
    · exact trivial
    · split
      · exact fun i b _ => id
      · refine (ih (blocks.set n nullBlock)).bind ?_
        rintro ⟨removed, after⟩ stays i b notNull atI
        have before := stays i b notNull atI
        rw [List.getElem?_set] at before
        split at before
        · split at before
          · exact absurd (Option.some.inj before).symm notNull
          · cases before
        · exact before

theorem removeSkippedBlocks_places (requestId : Nat) (numComputedTokens : Int) :
    KeepsPlaces hasher isFull (removeSkippedBlocks (H := H) requestId numComputedTokens) := by
  intro pool manager others stands _ _ _ kinds _ placed
  unfold removeSkippedBlocks
  dsimp only
  split
  · exact placed
  · rename_i skips
    have notFull : ¬ isFull manager.kvCacheGroupId := by
      intro full
      rw [getNumSkippedTokens, kinds.mpr full] at skips
      exact skips (le_refl 0)
    refine (skipBlocks_getElem? _ (manager.table requestId)).bind ?_
    rintro ⟨removed, blocks⟩ stays
    have same := freeBlocks_sameCache removed pool
    refine placed.mono ?_ ?_ fun b key isHashed => (same.blockHash b).symm.trans isHashed
    · intro b p notNull atP
      refine atP.imp_left fun here => here.of_tables rfl fun other atIndex => ?_
      rw [table_setTable] at atIndex
      split at atIndex
      · rename_i isRequest
        rw [isRequest]
        exact stays p.2 b notNull atIndex
      · exact atIndex
    · rintro p (⟨_, isManager, inGroup, -⟩ | there)
      · obtain rfl := List.mem_singleton.mp isManager
        rw [← inGroup]
        exact notFull
      · exact placed.solid p (Or.inr there)

variable [DecidableEq H]

theorem allocateNewBlocks_places (requestId : Nat) (numTokens : Int) :
    KeepsPlaces hasher isFull (allocateNewBlocks (H := H) requestId numTokens) := by
  intro pool manager others stands ok _ caching _ elsewhere placed
  unfold allocateNewBlocks
  dsimp only
  split
  · refine placed.of_subset
      (fun b p atP => atP.imp_left fun here => here.of_tables rfl fun other atIndex => ?_)
      fun _ _ => id
    rw [table_withEntry] at atIndex
    exact atIndex
  · generalize (cdiv (manager.numTokensWithSpeculative numTokens) manager.blockSize -
      (manager.table requestId).length).toNat = n
    cases taken : pool.getNewBlocks n with
    | error e => exact trivial
    | ok result =>
      obtain ⟨new, after⟩ := result
      obtain ⟨-, -, -, once, unused, others⟩ := (ok.getNewBlocks_meets n).ok taken
      have unhashed := ok.getNewBlocks_unhashed caching taken
      have nullOld : nullBlock ∉ new := fun isNew => (unused _ isNew).2.2.2 rfl
      -- a new block was nowhere, so its place is the end of the table
      have notNew : ∀ b p, StandsAt [manager] b p ∨ stands b p → b ∉ new := by
        intro b p atP isNew
        refine (unused b isNew).2.2.1 (Multiset.mem_add.mpr (atP.imp ?_ (elsewhere b p)))
        intro here
        have inTable := here.mem_holdersOf
        rwa [holdersOf_cons, holdersOf_nil, add_zero] at inTable
      have origin : ∀ b p,
          StandsAt [manager.setTable requestId (manager.table requestId ++ new)] b p ∨ stands b p →
            (StandsAt [manager] b p ∨ stands b p) ∨
              ∃ j, new[j]? = some b ∧
                p = (manager.kvCacheGroupId, (manager.table requestId).length + j) := by
        rintro b p (⟨_, isManager, inGroup, other, atIndex⟩ | there)
        · obtain rfl := List.mem_singleton.mp isManager
          rw [table_setTable] at atIndex
          split at atIndex
          · rw [List.getElem?_append] at atIndex
            split at atIndex
            · exact Or.inl (Or.inl
                ⟨manager, List.mem_singleton_self _, inGroup, requestId, atIndex⟩)
            · rename_i isRequest later
              refine Or.inr ⟨p.2 - (manager.table requestId).length, atIndex, Prod.ext ?_ ?_⟩
              · exact inGroup.symm
              · dsimp only
                omega
          · exact Or.inl (Or.inl ⟨manager, List.mem_singleton_self _, inGroup, other, atIndex⟩)
        · exact Or.inl (Or.inr there)
      refine ⟨?_, ?_, ?_, ?_⟩
      · intro b p p' notNull atP atP'
        rcases origin b p atP with old | ⟨j, atJ, rfl⟩
        · rcases origin b p' atP' with old' | ⟨j', atJ', -⟩
          · exact placed.once b p p' notNull old old'
          · exact absurd (List.mem_of_getElem? atJ') (notNew b p old)
        · rcases origin b p' atP' with old' | ⟨j', atJ', rfl⟩
          · exact absurd (List.mem_of_getElem? atJ) (notNew b p' old')
          · have inside := (List.getElem?_eq_some_iff.mp atJ).1
            have sameIndex := (List.getElem?_inj inside once).mp (atJ.trans atJ'.symm)
            rw [sameIndex]
      · intro b p key notNull atP isHashed
        rcases origin b p atP with old | ⟨j, atJ, -⟩
        · rw [others b (notNew b p old)] at isHashed
          exact placed.hashed b p key notNull old isHashed
        · cases (unhashed b (List.mem_of_getElem? atJ)).symm.trans isHashed
      · intro p atP
        rcases origin nullBlock p atP with old | ⟨j, atJ, -⟩
        · exact placed.solid p old
        · exact absurd (List.mem_of_getElem? atJ) nullOld
      · intro key isHashed
        rw [others nullBlock nullOld] at isHashed
        exact placed.nullHash key isHashed

theorem cacheBlocks_places {request : Request H} (hashed : request.Hashed hasher)
    (numTokens : Int) :
    KeepsPlaces hasher isFull (cacheBlocks request numTokens) := by
  intro pool manager others stands _ _ _ _ _ placed
  unfold cacheBlocks
  split
  · exact trivial
  · dsimp only
    split
    · exact placed
    · refine (cacheFullBlocks_origin request.blockHashes (manager.table request.requestId) _ _
        manager.blockSize manager.kvCacheGroupId pool).bind fun after origin => ?_
      have sameTables : ∀ b p numCached,
          StandsAt [{ manager.withEntry request.requestId with numCachedBlock := numCached }] b p →
            StandsAt [manager] b p := by
        intro b p numCached atP
        refine atP.of_tables rfl fun other atIndex => ?_
        rw [← table_withEntry request.requestId other manager]
        exact atIndex
      have here : ∀ j b : Nat, (manager.table request.requestId)[j]? = some b →
          StandsAt [manager] b (manager.kvCacheGroupId, j) := fun j b atJ =>
        ⟨manager, List.mem_singleton_self _, rfl, request.requestId, atJ⟩
      refine ⟨?_, ?_, ?_, ?_⟩
      · intro b p p' notNull atP atP'
        exact placed.once b p p' notNull (atP.imp_left (sameTables b p _))
          (atP'.imp_left (sameTables b p' _))
      · intro b p key notNull atP isHashed
        have old := atP.imp_left (sameTables b p _)
        rcases origin b key isHashed with wasHashed | ⟨sameGroup, groupHashes, j, merged,
          found, atJ, -⟩
        · exact placed.hashed b p key notNull old wasHashed
        · rw [placed.once b p _ notNull old (Or.inl (here j b atJ))]
          exact ⟨sameGroup, hashPlace_of_merged hashed merged found⟩
      · intro p atP
        exact placed.solid p (atP.imp_left (sameTables nullBlock p _))
      · intro key isHashed
        rcases origin nullBlock key isHashed with wasHashed | ⟨sameGroup, _, j, -, -, atJ, -⟩
        · exact placed.nullHash key wasHashed
        · rw [sameGroup]
          exact placed.solid _ (Or.inl (here j nullBlock atJ))

end SingleTypeKVCacheManager

/-! ## All groups -/

namespace KVCacheManager

variable {config : KVCacheConfig} {hasher : Option (BlockHasher H)} {m m' : KVCacheManager H}
  {args : SlotArgs H} {requestId : Nat} {released : List Nat}

structure Shaped (config : KVCacheConfig) (m : KVCacheManager H) : Prop where
  groups : (m.singleTypeManagers.map fun manager =>
    (manager.kvCacheSpec, manager.kvCacheGroupId)) = config.groups.zipIdx
  enableCaching : m.enableCaching = config.enableCaching
  poolCaching : m.blockPool.enableCaching = config.enableCaching

theorem shaped_init (config : KVCacheConfig) : (init config : KVCacheManager H).Shaped config := by
  refine ⟨?_, rfl, rfl⟩
  simp only [init, List.map_map]
  exact List.map_id _

theorem Shaped.of_effect (shaped : m.Shaped config) (effect : Effect requestId released m m') :
    m'.Shaped config :=
  ⟨(map_of_frame (fun _ _ frame => Prod.ext frame.kvCacheSpec frame.kvCacheGroupId)
      effect.frame).trans shaped.groups,
    effect.enableCaching.trans shaped.enableCaching,
    effect.config.enableCaching.trans shaped.poolCaching⟩

theorem Shaped.kinds (shaped : m.Shaped config) {manager : SingleTypeKVCacheManager}
    (isManager : manager ∈ m.singleTypeManagers) :
    manager.kvCacheSpec.attention = .full ↔
      isFullGroup config.groups manager.kvCacheGroupId = true := by
  have isGroup : (manager.kvCacheSpec, manager.kvCacheGroupId) ∈ config.groups.zipIdx := by
    rw [← shaped.groups]
    exact List.mem_map.mpr ⟨manager, isManager, rfl⟩
  rw [List.mem_zipIdx_iff_getElem?] at isGroup
  rw [isFullGroup, isGroup, Option.any_some, decide_eq_true_iff]

theorem Shaped.groupIds (shaped : m.Shaped config) :
    m.singleTypeManagers.map (·.kvCacheGroupId) = List.range m.singleTypeManagers.length := by
  have ids := congrArg (List.map Prod.snd) shaped.groups
  have sameLength := congrArg List.length shaped.groups
  rw [List.length_map, List.length_zipIdx] at sameLength
  rw [List.map_map, List.zipIdx_map_snd] at ids
  rw [sameLength, List.range_eq_range']
  exact ids

theorem Shaped.specs (shaped : m.Shaped config) :
    m.singleTypeManagers.map (·.kvCacheSpec) = config.groups := by
  have specs := congrArg (List.map Prod.fst) shaped.groups
  rw [List.map_map, List.zipIdx_map_fst] at specs
  exact specs

structure Arranged (config : KVCacheConfig) (hasher : Option (BlockHasher H))
    (m : KVCacheManager H) : Prop where
  ok : m.Ok
  shaped : m.Shaped config
  placed : Placed hasher (fun groupId => isFullGroup config.groups groupId = true) m.blockPool
    (StandsAt m.singleTypeManagers)

theorem arranged_init (config : KVCacheConfig) (hasher : Option (BlockHasher H)) :
    (init config : KVCacheManager H).Arranged config hasher := by
  have nowhere : ∀ b p, ¬ StandsAt (init config : KVCacheManager H).singleTypeManagers b p := by
    rintro b p ⟨manager, isManager, -, requestId, atIndex⟩
    rw [init_table isManager] at atIndex
    cases atIndex
  refine ⟨init_ok config, shaped_init config, ?_, ?_, ?_, ?_⟩
  · exact fun b p _ _ atP => absurd atP (nowhere b p)
  · exact fun b p _ _ atP => absurd atP (nowhere b p)
  · exact fun p atP => absurd atP (nowhere nullBlock p)
  · exact fun key isHashed => (nomatch isHashed)

theorem Arranged.of_subset (arranged : m.Arranged config hasher)
    (effect : Effect requestId released m m')
    (stands : ∀ b p, StandsAt m'.singleTypeManagers b p → StandsAt m.singleTypeManagers b p)
    (hashes : ∀ b key, (m'.blockPool.blocks b).blockHash = some key →
      (m.blockPool.blocks b).blockHash = some key) : m'.Arranged config hasher :=
  ⟨effect.ok, arranged.shaped.of_effect effect, arranged.placed.of_subset stands hashes⟩

theorem Arranged.pinRequest (arranged : m.Arranged config hasher) (requestId : Nat) :
    (m.pinRequest requestId).Arranged config hasher := by
  refine arranged.of_subset (arranged.ok.pinRequest requestId) (fun _ _ => id) ?_
  intro b key isHashed
  rwa [pinRequest_blockHash arranged.ok] at isHashed

theorem Arranged.clearPinned (arranged : m.Arranged config hasher) (requestId : Nat) :
    (m.clearPinned requestId).Arranged config hasher := by
  have same := clearPinned_sameCache arranged.ok requestId
  exact arranged.of_subset (arranged.ok.clearPinned requestId).1 (fun _ _ => id)
    fun b _ isHashed => (same.blockHash b).symm.trans isHashed

theorem ReadTables.standsAt {managers managers' : List SingleTypeKVCacheManager}
    (reads : ReadTables requestId managers managers') {b : Nat} {p : Nat × Nat}
    (stands : StandsAt managers' b p) : StandsAt managers b p := by
  induction reads with
  | nil => exact stands
  | @cons manager manager' managers managers' head _ ih =>
    rw [standsAt_cons] at stands ⊢
    refine stands.imp (fun here => ?_) ih
    rcases head with rfl | rfl
    · exact here
    · refine here.of_tables (frame_withEntry requestId _).kvCacheGroupId
        fun other atIndex => ?_
      rwa [table_withEntry] at atIndex

theorem Arranged.readTables (arranged : m.Arranged config hasher)
    {managers : List SingleTypeKVCacheManager}
    (reads : ReadTables requestId m.singleTypeManagers managers) :
    Arranged config hasher { m with singleTypeManagers := managers } :=
  arranged.of_subset (arranged.ok.readTables reads) (fun _ _ => reads.standsAt) fun _ _ => id

section

variable (caching : config.enableCaching = true)

include caching

theorem Arranged.forEachManager {β : Type} {released : SingleTypeKVCacheManager → List Nat}
    {f : BlockPool H → SingleTypeKVCacheManager →
      Except EngineError (β × BlockPool H × SingleTypeKVCacheManager)}
    (arranged : m.Arranged config hasher) (keeps : Keeps requestId released f)
    (places : KeepsPlaces hasher (fun groupId => isFullGroup config.groups groupId = true) f) :
    Gives (fun (_, pool, managers) =>
        Arranged config hasher { m with blockPool := pool, singleTypeManagers := managers })
      (forEachManager f m.blockPool m.singleTypeManagers) := by
  have start := arranged.ok.pool
  rw [holders, ← add_zero (holdersOf m.singleTypeManagers)] at start
  have kept := forEachManager_keeps keeps _ _ _ start arranged.ok.distinct
  have placed := forEachManager_places keeps places _ _ _ (fun _ _ => False) start
    arranged.ok.distinct (arranged.shaped.poolCaching.trans caching)
    (fun manager isManager => arranged.shaped.kinds isManager) (fun _ _ => False.elim)
    (arranged.placed.of_subset (fun b p atP => atP.resolve_right id) fun _ _ => id)
  refine (placed.and kept).mono ?_
  rintro ⟨outs, pool, managers⟩ ⟨placed, kept⟩
  have effect := KeptAll.effect kept
  exact ⟨effect.ok, arranged.shaped.of_effect effect,
    placed.of_subset (fun _ _ => Or.inl) fun _ _ => id⟩

theorem Arranged.onManagers {released : SingleTypeKVCacheManager → List Nat}
    {f : BlockPool H → SingleTypeKVCacheManager →
      Except EngineError (Unit × BlockPool H × SingleTypeKVCacheManager)}
    (arranged : m.Arranged config hasher) (keeps : Keeps requestId released f)
    (places : KeepsPlaces hasher (fun groupId => isFullGroup config.groups groupId = true) f) :
    Gives (Arranged config hasher) (m.onManagers f) := by
  unfold KVCacheManager.onManagers
  exact (arranged.forEachManager caching keeps places).bind fun _ arranged' => arranged'

end

/-! ## Operations on all groups -/

/-- Saving a hit puts its blocks into a table of their group, at their indices. -/
theorem saveNewComputedBlocks_standsAt {R : Nat → List Nat → Prop} (requestId : Nat) :
    ∀ {managers : List SingleTypeKVCacheManager} {hits : List (List Nat)},
      List.Forall₂ R (managers.map (·.kvCacheGroupId)) hits →
        Gives (fun managers' => ∀ b p, StandsAt managers' b p →
            StandsAt managers b p ∨ ∃ blocks : List Nat, R p.1 blocks ∧ blocks[p.2]? = some b)
          (saveNewComputedBlocks requestId managers hits) := by
  intro managers
  induction managers with
  | nil => exact fun _ b p atP => Or.inl atP
  | cons manager managers ih =>
    intro hits perGroup
    cases hits with
    | nil => exact trivial
    | cons blocks hits =>
      obtain ⟨hit, others⟩ := List.forall₂_cons.mp perGroup
      have saved : Gives (fun manager' => ∀ b p, StandsAt [manager'] b p →
          StandsAt [manager] b p ∨ R p.1 blocks ∧ blocks[p.2]? = some b)
          (manager.saveNewComputedBlocks requestId blocks) := by
        unfold SingleTypeKVCacheManager.saveNewComputedBlocks
        split
        · split
          · exact trivial
          · exact fun b p atP => Or.inl atP
        · split
          · exact trivial
          · rintro b p ⟨_, isManager, inGroup, other, atIndex⟩
            obtain rfl := List.mem_singleton.mp isManager
            have atIndex : ((manager.setTable requestId blocks).table other)[p.2]? = some b :=
              atIndex
            rw [table_setTable] at atIndex
            split at atIndex
            · have inGroup : manager.kvCacheGroupId = p.1 := inGroup
              exact Or.inr ⟨inGroup ▸ hit, atIndex⟩
            · exact Or.inl ⟨manager, List.mem_singleton_self _, inGroup, other, atIndex⟩
        · split
          · exact trivial
          · exact fun b p atP => Or.inl atP
      rw [saveNewComputedBlocks]
      refine saved.bind fun first atFirst => ?_
      refine (ih others).bind fun rest atRest => ?_
      intro b p atP
      rcases standsAt_cons.mp atP with here | there
      · rcases atFirst b p here with old | found
        · exact Or.inl (standsAt_cons.mpr (Or.inl old))
        · exact Or.inr ⟨blocks, found⟩
      · rcases atRest b p there with old | found
        · exact Or.inl (standsAt_cons.mpr (Or.inr old))
        · exact Or.inr found

def FoundIn (config : KVCacheConfig) (hasher : Option (BlockHasher H)) (pool : BlockPool H)
    (groupId : Nat) (blocks : List Nat) : Prop :=
  ∀ i b : Nat, blocks[i]? = some b →
    FoundFor hasher (fun g => isFullGroup config.groups g = true) pool b (groupId, i)

/-- What is passed to `allocate_slots` was found for the places it gets. -/
theorem Arranged.found (arranged : m.Arranged config hasher) (issued : args.Issued hasher m) :
    List.Forall₂ (FoundIn config hasher m.blockPool) (List.range m.singleTypeManagers.length)
      args.newComputedBlocks := by
  have cache := arranged.ok.pool.cache
  have cached : List.Forall₂ (fun groupId blocks => isFullGroup config.groups groupId = true →
      m.blockPool.CachedIn groupId blocks) (List.range m.singleTypeManagers.length)
      args.newComputedBlocks := by
    rw [← arranged.shaped.specs]
    obtain ⟨-, noHit | ⟨n, computed⟩⟩ := issued
    · rw [noHit]
      exact emptyKVCacheBlocks_cachedIn m _
    · exact getComputedBlocks_cachedIn computed
  refine List.forall₂_iff_zip.mpr ⟨cached.length_eq, fun {groupId blocks} isPair i b atI => ?_⟩
  obtain ⟨blockSize, groupHashes, merged, hits⟩ := List.forall₂_zip issued.perGroup isPair
  refine ⟨fun notNull => ?_, ?_⟩
  · obtain ⟨blockHash, atHash, found⟩ := (hits i b atI).resolve_left notNull
    exact ⟨⟨blockHash, groupId⟩, cache.blockHash_of_getOneBlock found, rfl,
      hashPlace_of_merged issued.1 merged atHash⟩
  · rintro rfl isFull
    obtain ⟨blockHash, found⟩ :=
      List.forall₂_zip cached isPair isFull nullBlock (List.mem_of_getElem? atI)
    exact arranged.placed.nullHash _ (cache.blockHash_of_getOneBlock found) isFull

theorem Arranged.addComputedBlocks (arranged : m.Arranged config hasher)
    (free : ∀ h ∈ hasher, h.CollisionFree) (valid : args.Valid m)
    (found : List.Forall₂ (FoundIn config hasher m.blockPool)
      (List.range m.singleTypeManagers.length) args.newComputedBlocks) :
    Gives (Arranged config hasher) (m.addComputedBlocks args) := by
  have placed : Gives (fun m' => Placed hasher
      (fun groupId => isFullGroup config.groups groupId = true) m'.blockPool
      (StandsAt m'.singleTypeManagers)) (m.addComputedBlocks args) := by
    have touched := (arranged.ok.touchComputedBlocks valid).weaken fun _ _ => trivial
    have saved : Gives (fun managers => ∀ b p, StandsAt managers b p →
        StandsAt m.singleTypeManagers b p ∨ ∃ blocks : List Nat,
          FoundIn config hasher m.blockPool p.1 blocks ∧ blocks[p.2]? = some b)
        (m.saveComputedBlocks args) := by
      unfold KVCacheManager.saveComputedBlocks
      split
      · refine saveNewComputedBlocks_standsAt _ ?_
        rw [arranged.shaped.groupIds]
        exact found
      · exact fun b p => Or.inl
    unfold KVCacheManager.addComputedBlocks
    refine touched.bind ?_
    rintro pool ⟨-, same, -⟩
    refine saved.bind fun managers origin => ?_
    have before : Placed hasher (fun groupId => isFullGroup config.groups groupId = true) pool
        (StandsAt m.singleTypeManagers) :=
      arranged.placed.of_subset (fun _ _ => id) fun b _ isHashed =>
        (same.blockHash b).symm.trans isHashed
    refine before.of_found free fun b p atP => ?_
    rcases origin b p atP with old | ⟨blocks, foundIn, atI⟩
    · exact Or.inl old
    · exact Or.inr ((foundIn p.2 b atI).of_sameCache same)
  refine (placed.and (arranged.ok.addComputedBlocks valid)).mono ?_
  rintro m' ⟨placed', effect⟩
  exact ⟨effect.ok, arranged.shaped.of_effect effect, placed'⟩

theorem allocateNewBlocks_places [DecidableEq H] {isFull : Nat → Prop} (requestId : Nat)
    (numTokens numEncoderTokens : Int) :
    KeepsPlaces (H := H) hasher isFull fun pool manager =>
      manager.allocateNewBlocks requestId
        (match manager.kvCacheSpec.attention with
          | .cross => numEncoderTokens
          | _ => numTokens) pool :=
  fun pool manager => SingleTypeKVCacheManager.allocateNewBlocks_places _ _ pool manager

section

variable (caching : config.enableCaching = true)

include caching

theorem Arranged.removeSkippedBlocks (arranged : m.Arranged config hasher) (requestId : Nat)
    (numComputedTokens : Int) :
    Gives (Arranged config hasher)
      (m.removeSkippedBlocks requestId numComputedTokens) :=
  arranged.onManagers caching
    (removeSkippedBlocks_keeps requestId numComputedTokens)
    (removeSkippedBlocks_places requestId numComputedTokens)

theorem Arranged.free (arranged : m.Arranged config hasher) (requestId : Nat) :
    Gives (Arranged config hasher) (m.free requestId) :=
  arranged.onManagers caching (free_keeps requestId)
    (free_places requestId)

theorem Arranged.takeComputedBlocks (arranged : m.Arranged config hasher)
    (free : ∀ h ∈ hasher, h.CollisionFree) (issued : args.Issued hasher m) :
    Gives (fun (_, m') => m'.Arranged config hasher)
      (m.takeComputedBlocks args) := by
  have valid := issued.valid free
  have found := arranged.found issued
  unfold KVCacheManager.takeComputedBlocks
  split
  · exact trivial
  · refine ((arranged.removeSkippedBlocks caching _ _).and
      (arranged.ok.removeSkippedBlocks _ _)).bind ?_
    rintro m₁ ⟨removed, effect, same⟩
    have counts := getNumBlocksToAllocate_spec m₁.blockPool args.request.requestId
      (m₁.numTokensNeedSlot args) args.numEncoderTokens m₁.singleTypeManagers
      args.newComputedBlocks
    refine (counts.weaken fun _ _ => trivial).bind ?_
    rintro ⟨n, _⟩ rfl
    have counted := removed.readTables (readTables_withEntry args.request.requestId _)
    dsimp only
    split
    · exact counted
    · -- the hit was found before the removal, which keeps the prefix cache
      have sameLength : (m₁.singleTypeManagers.map
          (withEntry args.request.requestId)).length =
          m.singleTypeManagers.length := by
        rw [List.length_map, effect.frame.length_eq]
      refine (counted.addComputedBlocks free (valid.of_sameCache sameLength same) ?_).bind
        fun _ added => added
      rw [sameLength]
      exact found.imp fun _ _ foundIn i b atI => (foundIn i b atI).of_sameCache same

variable [DecidableEq H]

theorem Arranged.cacheBlocks (arranged : m.Arranged config hasher) {request : Request H}
    (hashed : request.Hashed hasher) (numTokens : Int) :
    Gives (Arranged config hasher)
      (m.onManagers (SingleTypeKVCacheManager.cacheBlocks request numTokens)) :=
  arranged.onManagers caching (cacheBlocks_keeps request numTokens)
    (cacheBlocks_places hashed numTokens)

theorem Arranged.allocateNewBlocks (arranged : m.Arranged config hasher) (requestId : Nat)
    (numTokens numEncoderTokens : Int) :
    Gives (fun (_, pool, managers) =>
        Arranged config hasher { m with blockPool := pool, singleTypeManagers := managers })
      (allocateNewBlocks requestId numTokens numEncoderTokens m.blockPool m.singleTypeManagers) :=
  arranged.forEachManager caching (allocateNewBlocks_keeps requestId numTokens numEncoderTokens)
    (allocateNewBlocks_places requestId numTokens numEncoderTokens)

theorem Arranged.allocateSlots (arranged : m.Arranged config hasher)
    (free : ∀ h ∈ hasher, h.CollisionFree) (issued : args.Issued hasher m) :
    Gives (fun (_, m') => m'.Arranged config hasher) (m.allocateSlots args) := by
  unfold KVCacheManager.allocateSlots
  refine (arranged.takeComputedBlocks caching free issued).bind ?_
  rintro ⟨fits, m₁⟩ taken
  dsimp only
  split
  · exact taken
  · refine (taken.allocateNewBlocks caching _ _ _).bind ?_
    rintro ⟨newBlocks, pool, managers⟩ allocated
    dsimp only
    split
    · exact allocated
    · refine (allocated.cacheBlocks caching issued.1 _).bind fun m₂ cached => ?_
      split
      · exact cached.pinRequest _
      · exact cached

end

end KVCacheManager

end Kalypso.Engine
