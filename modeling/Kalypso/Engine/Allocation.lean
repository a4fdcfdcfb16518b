import Kalypso.Engine.TableInvariant

/-!
# Allocation over all groups

Every operation of the KV-cache manager on one request is described by one relation: the pool
stays consistent, the tables of the other requests and the hashes of their blocks stay as they
are, and only blocks that the request itself gives back leave the tables.
-/

set_option autoImplicit false

namespace Kalypso.Engine

open Kalypso.Lib BlockPool
open SingleTypeKVCacheManager

namespace KVCacheManager

variable {H : Type} {m m' m'' : KVCacheManager H} {requestId : Nat} {released : List Nat}

def holders (m : KVCacheManager H) : Multiset Nat := holdersOf m.singleTypeManagers

structure Ok (m : KVCacheManager H) : Prop where
  pool : m.blockPool.Ok m.holders
  distinct : ∀ manager ∈ m.singleTypeManagers, manager.Distinct

def Holds (m : KVCacheManager H) (requestId b : Nat) : Prop :=
  ∃ manager ∈ m.singleTypeManagers, b ∈ manager.table requestId

theorem mem_holders_iff {b : Nat} : b ∈ m.holders ↔ ∃ requestId, m.Holds requestId b := by
  rw [holders, mem_holdersOf]
  constructor
  · rintro ⟨manager, isManager, inUse⟩
    obtain ⟨requestId, inTable⟩ := SingleTypeKVCacheManager.mem_holders_iff.mp inUse
    exact ⟨requestId, manager, isManager, inTable⟩
  · rintro ⟨requestId, manager, isManager, inTable⟩
    exact ⟨manager, isManager, mem_holders_of_table inTable⟩

theorem holds_iff_mem_getBlocks {b : Nat} :
    m.Holds requestId b ↔ b ∈ (m.getBlocks requestId).flatten := by
  simp only [Holds, getBlocks, List.mem_flatten, List.mem_map, exists_exists_and_eq_and]

structure Effect (requestId : Nat) (released : List Nat) (m m' : KVCacheManager H) : Prop where
  ok : m'.Ok
  maxModelLen : m'.maxModelLen = m.maxModelLen
  enableCaching : m'.enableCaching = m.enableCaching
  useEagle : m'.useEagle = m.useEagle
  worldSize : m'.worldSize = m.worldSize
  frame : List.Forall₂ (SingleTypeKVCacheManager.Frame requestId) m.singleTypeManagers
    m'.singleTypeManagers
  retains : ∀ b, m.Holds requestId b → m'.Holds requestId b ∨ b ∈ released
  config : SameConfig m.blockPool m'.blockPool
  hashes : ∀ other b, other ≠ requestId → m.Holds other b → ∀ key,
    (m.blockPool.blocks b).blockHash = some key → (m'.blockPool.blocks b).blockHash = some key
  pins : ∀ b, (m'.blockPool.blocks b).pinned = true →
    (m.blockPool.blocks b).pinned = true ∨ m'.Holds requestId b

theorem forall₂_frame_refl (requestId : Nat) (managers : List SingleTypeKVCacheManager) :
    List.Forall₂ (SingleTypeKVCacheManager.Frame requestId) managers managers :=
  List.forall₂_same.mpr fun manager _ => .refl requestId manager

theorem forall₂_frame_trans {first second third : List SingleTypeKVCacheManager}
    (frame : List.Forall₂ (SingleTypeKVCacheManager.Frame requestId) first second)
    (frame' : List.Forall₂ (SingleTypeKVCacheManager.Frame requestId) second third) :
    List.Forall₂ (SingleTypeKVCacheManager.Frame requestId) first third := by
  induction frame generalizing third with
  | nil => exact frame'
  | cons head _ ih =>
    cases frame' with
    | cons head' tail' => exact .cons (head.trans head') (ih tail')

theorem Effect.refl (ok : m.Ok) (requestId : Nat) (released : List Nat) :
    Effect requestId released m m :=
  ⟨ok, rfl, rfl, rfl, rfl, forall₂_frame_refl requestId _, fun _ => Or.inl, .refl _,
    fun _ _ _ _ _ isHashed => isHashed, fun _ => Or.inl⟩

theorem map_of_frame {β : Type} {f : SingleTypeKVCacheManager → β}
    (same : ∀ manager manager', SingleTypeKVCacheManager.Frame requestId manager manager' →
      f manager' = f manager) {managers managers' : List SingleTypeKVCacheManager}
    (frame : List.Forall₂ (SingleTypeKVCacheManager.Frame requestId) managers managers') :
    managers'.map f = managers.map f := by
  induction frame with
  | nil => rfl
  | cons head _ ih => rw [List.map_cons, List.map_cons, ih, same _ _ head]

theorem tables_of_frame {other : Nat} (different : other ≠ requestId)
    {managers managers' : List SingleTypeKVCacheManager}
    (frame : List.Forall₂ (SingleTypeKVCacheManager.Frame requestId) managers managers') :
    managers'.map (table other) =
      managers.map (table other) :=
  map_of_frame (fun _ _ head => head.table other different) frame

theorem getBlocks_of_frame {other : Nat} (different : other ≠ requestId)
    (frame : List.Forall₂ (SingleTypeKVCacheManager.Frame requestId) m.singleTypeManagers
      m'.singleTypeManagers) : m'.getBlocks other = m.getBlocks other :=
  tables_of_frame different frame

theorem holds_of_frame {other b : Nat} (different : other ≠ requestId)
    (frame : List.Forall₂ (SingleTypeKVCacheManager.Frame requestId) m.singleTypeManagers
      m'.singleTypeManagers) : m'.Holds other b ↔ m.Holds other b := by
  rw [holds_iff_mem_getBlocks, holds_iff_mem_getBlocks, getBlocks_of_frame different frame]

theorem Effect.trans (first : Effect requestId released m m')
    (second : Effect requestId [] m' m'') :
    Effect requestId released m m'' := by
  refine ⟨second.ok, second.maxModelLen.trans first.maxModelLen,
    second.enableCaching.trans first.enableCaching, second.useEagle.trans first.useEagle,
    second.worldSize.trans first.worldSize, forall₂_frame_trans first.frame second.frame, ?_,
    first.config.trans second.config, ?_, ?_⟩
  · intro b inUse
    rcases first.retains b inUse with stays | left
    · exact Or.inl ((second.retains b stays).resolve_right (List.not_mem_nil))
    · exact Or.inr left
  · intro other b different inUse key isHashed
    refine second.hashes other b different ?_ key
      (first.hashes other b different inUse key isHashed)
    exact (holds_of_frame different first.frame).mpr inUse
  · intro b isPinned
    rcases second.pins b isPinned with wasPinned | inUse
    · rcases first.pins b wasPinned with atFirst | inUse
      · exact Or.inl atFirst
      · exact Or.inr ((second.retains b inUse).resolve_right (List.not_mem_nil))
    · exact Or.inr inUse

theorem KeptAll.effect {pool : BlockPool H} {managers : List SingleTypeKVCacheManager}
    (kept : KeptAll requestId released 0 m.blockPool m.singleTypeManagers pool managers) :
    Effect requestId released m { m with blockPool := pool, singleTypeManagers := managers } := by
  have ok := kept.ok
  rw [add_zero] at ok
  refine ⟨⟨ok, kept.distinct⟩, rfl, rfl, rfl, rfl, kept.frame, ?_, kept.config, ?_, ?_⟩
  · rintro b ⟨manager, isManager, inTable⟩
    exact kept.retains b manager isManager inTable
  · intro other b different inUse
    exact kept.hashes b (Or.inl ⟨other, different, inUse⟩)
  · intro b isPinned
    have same := congrFun kept.flags b
    exact Or.inl (same.symm.trans isPinned)

theorem Ok.onManagers (ok : m.Ok) {released : SingleTypeKVCacheManager → List Nat}
    {f : BlockPool H → SingleTypeKVCacheManager →
      Except EngineError (Unit × BlockPool H × SingleTypeKVCacheManager)}
    (keeps : Keeps requestId released f) :
    Safely (fun m' => Effect requestId (m.singleTypeManagers.flatMap released) m m' ∧
      m'.blockPool.view.kept = m.blockPool.view.kept) (m.onManagers f) := by
  have start := ok.pool
  rw [holders, ← add_zero (holdersOf m.singleTypeManagers)] at start
  unfold KVCacheManager.onManagers
  exact (forEachManager_keeps keeps _ _ _ start ok.distinct).bind fun _ kept =>
    ⟨KeptAll.effect kept, kept.flags⟩

theorem free_releases (requestId : Nat) (m : KVCacheManager H) :
    Gives (fun m' => ∀ b, ¬ m'.Holds requestId b) (m.free requestId) := by
  unfold KVCacheManager.free KVCacheManager.onManagers
  refine (forEachManager_managers (Q := fun manager => manager.table requestId = []) ?_ _ _).bind ?_
  · intro pool manager
    exact (table_erase requestId requestId manager _).trans (if_pos rfl)
  · rintro ⟨_, pool, managers⟩ empty b ⟨manager, isManager, inTable⟩
    rw [empty manager isManager] at inTable
    exact List.not_mem_nil inTable

theorem Ok.free (ok : m.Ok) (requestId : Nat) :
    Safely (fun m' => (Effect requestId (m.getBlocks requestId).flatten m m' ∧
      m'.blockPool.view.kept = m.blockPool.view.kept) ∧ ∀ b, ¬ m'.Holds requestId b)
      (m.free requestId) :=
  (ok.onManagers (free_keeps requestId)).and (free_releases requestId m)

/-- The blocks of a request that are out of the attention window of their group. -/
def outOfWindow (requestId : Nat) (numComputedTokens : Int) (m : KVCacheManager H) : List Nat :=
  m.singleTypeManagers.flatMap
    (SingleTypeKVCacheManager.outOfWindow requestId numComputedTokens)

theorem Ok.removeSkippedBlocks (ok : m.Ok) (requestId : Nat) (numComputedTokens : Int) :
    Safely (fun m' => Effect requestId (m.outOfWindow requestId numComputedTokens) m m' ∧
      SameCache m.blockPool m'.blockPool) (m.removeSkippedBlocks requestId numComputedTokens) := by
  have keeps := ok.onManagers
    (removeSkippedBlocks_keeps (H := H) requestId numComputedTokens)
  have same : Gives (fun m' => SameCache m.blockPool m'.blockPool)
      (m.removeSkippedBlocks requestId numComputedTokens) := by
    refine (forEachManager_each (P := SameCache m.blockPool) (Q := fun _ => True)
      (R := fun _ => True) ?_ _ _ (.refl _) fun _ _ => trivial).bind fun _ same => same.1
    intro pool manager same _
    exact (manager.removeSkippedBlocks_sameCache requestId numComputedTokens pool).mono
      fun _ more => ⟨same.trans more, trivial⟩
  exact (keeps.mono fun _ => And.left).and same

/-! ## Pinning -/

/-- Setting the flags of blocks in use, except those that are skipped, changes nothing but
flags. -/
theorem setPinned_each (value : Bool) (skip : BlockPool H → Nat → Bool) (blocks : List Nat) :
    ∀ {pool : BlockPool H} {holders : Multiset Nat}, pool.Ok holders →
      (∀ b ∈ blocks, b ∈ holders) →
        let pool' := blocks.foldl
          (fun pool b => if skip pool b then pool else pool.setPinned value b) pool
        pool'.Ok holders ∧ SameCache pool pool' ∧
          ∀ b, (pool'.blocks b).pinned = (pool.blocks b).pinned ∧
              (b ∈ blocks → ∃ pool, skip pool b = true) ∨
            b ∈ blocks ∧ (pool'.blocks b).pinned = value := by
  induction blocks with
  | nil => exact fun {pool} _ ok _ => ⟨ok, .refl pool, fun _ => Or.inl ⟨rfl, nofun⟩⟩
  | cons b blocks ih =>
    intro pool holders ok inUse
    have later : ∀ x ∈ blocks, x ∈ holders :=
      fun x member => inUse x (List.mem_cons_of_mem _ member)
    dsimp only
    rw [List.foldl_cons]
    split
    · rename_i skips
      obtain ⟨okRest, same, flags⟩ := ih ok later
      refine ⟨okRest, same, fun x => ?_⟩
      rcases flags x with ⟨unchanged, skipped⟩ | ⟨member, isValue⟩
      · refine Or.inl ⟨unchanged, fun member => ?_⟩
        rcases List.mem_cons.mp member with rfl | member
        · exact ⟨pool, skips⟩
        · exact skipped member
      · exact Or.inr ⟨List.mem_cons_of_mem _ member, isValue⟩
    · obtain ⟨okRest, same, flags⟩ := ih (ok.setPinned value (inUse b List.mem_cons_self)) later
      refine ⟨okRest, (setPinned_sameCache value b pool).trans same, fun x => ?_⟩
      have atFirst := congrFun (congrArg RefPool.kept (view_setPinned value b pool)) x
      rcases flags x with ⟨unchanged, skipped⟩ | ⟨member, isValue⟩
      · by_cases isB : x = b
        · subst isB
          refine Or.inr ⟨List.mem_cons_self, unchanged.trans (atFirst.trans ?_)⟩
          simp [RefPool.keep]
        · refine Or.inl ⟨unchanged.trans (atFirst.trans ?_), fun member => ?_⟩
          · simp [RefPool.keep, Function.update_of_ne isB, view]
          · exact skipped ((List.mem_cons.mp member).resolve_left isB)
      · exact Or.inr ⟨List.mem_cons_of_mem _ member, isValue⟩

theorem mem_holders_of_holds {b : Nat} (holds : m.Holds requestId b) : b ∈ m.holders :=
  mem_holders_iff.mpr ⟨requestId, holds⟩

theorem Ok.setPinned_blocks (ok : m.Ok) (value : Bool) (skip : BlockPool H → Nat → Bool)
    (requestId : Nat) :
    let pool' := (m.getBlocks requestId).flatten.foldl
      (fun pool b => if skip pool b then pool else pool.setPinned value b) m.blockPool
    pool'.Ok m.holders ∧ SameCache m.blockPool pool' ∧
      ∀ b, (pool'.blocks b).pinned = (m.blockPool.blocks b).pinned ∧
          (b ∈ (m.getBlocks requestId).flatten → ∃ pool, skip pool b = true) ∨
        b ∈ (m.getBlocks requestId).flatten ∧ (pool'.blocks b).pinned = value :=
  setPinned_each value skip _ ok.pool fun _ member =>
    mem_holders_of_holds (holds_iff_mem_getBlocks.mpr member)

theorem sameCache_effect {pool : BlockPool H} (ok : m.Ok) (okPool : pool.Ok m.holders)
    (same : SameCache m.blockPool pool)
    (pins : ∀ b, (pool.blocks b).pinned = true →
      (m.blockPool.blocks b).pinned = true ∨ m.Holds requestId b) :
    Effect requestId [] m { m with blockPool := pool } :=
  ⟨⟨okPool, ok.distinct⟩, rfl, rfl, rfl, rfl, forall₂_frame_refl requestId _, fun _ => Or.inl,
    same.toSameConfig, fun _ b _ _ _ isHashed => (same.blockHash b).trans isHashed, pins⟩

theorem Ok.pinRequest (ok : m.Ok) (requestId : Nat) :
    Effect requestId [] m (m.pinRequest requestId) := by
  obtain ⟨okPool, same, flags⟩ := ok.setPinned_blocks true
    (fun pool b => (pool.blocks b).isNull || (pool.blocks b).blockHash.isNone) requestId
  refine sameCache_effect ok okPool same fun b isPinned => ?_
  rcases flags b with ⟨unchanged, -⟩ | ⟨member, -⟩
  · exact Or.inl (unchanged.symm.trans isPinned)
  · exact Or.inr (holds_iff_mem_getBlocks.mpr member)

theorem pinRequest_blockHash (ok : m.Ok) (requestId b : Nat) :
    ((m.pinRequest requestId).blockPool.blocks b).blockHash =
      (m.blockPool.blocks b).blockHash := by
  obtain ⟨-, same, -⟩ := ok.setPinned_blocks true
    (fun pool b => (pool.blocks b).isNull || (pool.blocks b).blockHash.isNone) requestId
  exact same.blockHash b

theorem clearPinned_sameCache (ok : m.Ok) (requestId : Nat) :
    SameCache m.blockPool (m.clearPinned requestId).blockPool := by
  obtain ⟨-, same, -⟩ := ok.setPinned_blocks false (fun _ _ => false) requestId
  exact same

/-- `unpin_request` starts by clearing the flags of all blocks of the request. -/
theorem Ok.clearPinned (ok : m.Ok) (requestId : Nat) :
    Effect requestId [] m (m.clearPinned requestId) ∧
      ∀ b, ((m.clearPinned requestId).blockPool.blocks b).pinned = true →
        (m.blockPool.blocks b).pinned = true ∧ ¬ m.Holds requestId b := by
  obtain ⟨okPool, same, flags⟩ := ok.setPinned_blocks false (fun _ _ => false) requestId
  have pins : ∀ b, ((m.clearPinned requestId).blockPool.blocks b).pinned = true →
      (m.blockPool.blocks b).pinned = true ∧ ¬ m.Holds requestId b := by
    intro b isPinned
    rcases flags b with ⟨unchanged, skipped⟩ | ⟨member, isFalse⟩
    · refine ⟨unchanged.symm.trans isPinned, fun holds => ?_⟩
      obtain ⟨_, contradiction⟩ := skipped (holds_iff_mem_getBlocks.mp holds)
      cases contradiction
    · cases isFalse.symm.trans isPinned
  exact ⟨sameCache_effect ok okPool same fun b isPinned => Or.inl (pins b isPinned).1, pins⟩

/-- After `unpin_request` no block that the request held is pinned any more. -/
theorem Ok.unpinRequest (ok : m.Ok) (requestId : Nat) :
    Safely (fun m' => Effect requestId (m.getBlocks requestId).flatten m m' ∧
      (∀ b, (m'.blockPool.blocks b).pinned = true →
        (m.blockPool.blocks b).pinned = true ∧ ¬ m.Holds requestId b) ∧
      ∀ b, ¬ m'.Holds requestId b) (m.unpinRequest requestId) := by
  obtain ⟨cleared, pins⟩ := ok.clearPinned requestId
  refine (cleared.ok.free requestId).mono ?_
  rintro m' ⟨⟨freed, flags⟩, nothing⟩
  refine ⟨⟨freed.ok, freed.maxModelLen, freed.enableCaching, freed.useEagle, freed.worldSize,
    freed.frame, freed.retains, cleared.config.trans freed.config, ?_, ?_⟩, ?_, nothing⟩
  · intro other b different inUse key isHashed
    exact freed.hashes other b different inUse key
      (cleared.hashes other b different inUse key isHashed)
  · intro b isPinned
    exact Or.inl (pins b ((congrFun flags b).symm.trans isPinned)).1
  · intro b isPinned
    exact pins b ((congrFun flags b).symm.trans isPinned)

/-! ## Counting and saving -/

theorem getNumBlocksToAllocate_spec (pool : BlockPool H) (requestId : Nat)
    (numTokens numEncoderTokens : Int) :
    ∀ (managers : List SingleTypeKVCacheManager) (hits : List (List Nat)),
      Safely (fun (_, managers') =>
        managers' = managers.map (withEntry requestId))
        (getNumBlocksToAllocate pool requestId numTokens numEncoderTokens managers hits) := by
  intro managers
  induction managers with
  | nil => exact fun _ => rfl
  | cons manager managers ih =>
    intro hits
    have counts : Safely (fun result => result.2 = manager.withEntry requestId)
        (getNumBlocksForGroup pool requestId numTokens numEncoderTokens hits manager) := by
      unfold getNumBlocksForGroup
      split
      · exact rfl
      · exact id
      · exact rfl
    rw [getNumBlocksToAllocate]
    refine counts.bind ?_
    rintro ⟨needed, _⟩ rfl
    refine (ih hits.tail).bind ?_
    rintro ⟨others, _⟩ rfl
    exact rfl

def ReadTables (requestId : Nat) :
    List SingleTypeKVCacheManager → List SingleTypeKVCacheManager → Prop :=
  List.Forall₂ fun manager manager' => manager' = manager ∨ manager' = manager.withEntry requestId

theorem readTables_withEntry (requestId : Nat) (managers : List SingleTypeKVCacheManager) :
    ReadTables requestId managers (managers.map (withEntry requestId)) :=
  List.forall₂_map_right_iff.mpr (List.forall₂_same.mpr fun _ _ => Or.inr rfl)

theorem ReadTables.kept {managers managers' : List SingleTypeKVCacheManager}
    (reads : ReadTables requestId managers managers') :
    holdersOf managers' = holdersOf managers ∧
      List.Forall₂ (SingleTypeKVCacheManager.Frame requestId) managers managers' ∧
      ∀ other, managers'.map (table other) =
        managers.map (table other) := by
  induction reads with
  | nil => exact ⟨rfl, .nil, fun _ => rfl⟩
  | @cons manager manager' managers managers' head _ ih =>
    obtain ⟨sameHolders, frame, tables⟩ := ih
    simp only [List.map_cons, holdersOf_cons, sameHolders, tables]
    rcases head with rfl | rfl
    · exact ⟨rfl, .cons (.refl requestId _) frame, fun _ => rfl⟩
    · refine ⟨?_, .cons (frame_withEntry requestId manager) frame,
        fun other => ?_⟩
      · rw [holders_withEntry]
      · rw [table_withEntry]

theorem Ok.readTables (ok : m.Ok) {managers : List SingleTypeKVCacheManager}
    (reads : ReadTables requestId m.singleTypeManagers managers) :
    Effect requestId [] m { m with singleTypeManagers := managers } := by
  obtain ⟨sameHolders, frame, tables⟩ := reads.kept
  have pool := ok.pool
  rw [holders, ← sameHolders] at pool
  refine ⟨⟨pool, ?_⟩, rfl, rfl, rfl, rfl, frame, ?_, .refl _, fun _ _ _ _ _ isHashed => isHashed,
    fun _ => Or.inl⟩
  · intro manager isManager other
    have inTables : manager.table other ∈
        m.singleTypeManagers.map (table other) := by
      rw [← tables other]
      exact List.mem_map_of_mem isManager
    obtain ⟨before, wasManager, same⟩ := List.mem_map.mp inTables
    rw [← same]
    exact ok.distinct before wasManager other
  · intro b holds
    refine Or.inl (holds_iff_mem_getBlocks.mpr ?_)
    have inBlocks := holds_iff_mem_getBlocks.mp holds
    rwa [getBlocks, ← tables requestId] at inBlocks

theorem Ok.withEntry (ok : m.Ok) (requestId : Nat) :
    Effect requestId [] m { m with
      singleTypeManagers :=
        m.singleTypeManagers.map (withEntry requestId) } :=
  ok.readTables (readTables_withEntry requestId m.singleTypeManagers)

theorem saveNewComputedBlocks_one {manager : SingleTypeKVCacheManager} {blocks : List Nat}
    (once : DistinctBlocks blocks) (distinct : manager.Distinct) :
    Safely (fun manager' => manager'.holders = (blocks : Multiset Nat) + manager.holders ∧
      manager'.Distinct ∧ SingleTypeKVCacheManager.Frame requestId manager manager' ∧
      ∀ b ∈ manager.table requestId, b ∈ manager'.table requestId)
      (manager.saveNewComputedBlocks requestId blocks) := by
  have unchanged : blocks = [] → manager.holders = (blocks : Multiset Nat) + manager.holders ∧
      manager.Distinct ∧ SingleTypeKVCacheManager.Frame requestId manager manager ∧
      ∀ b ∈ manager.table requestId, b ∈ manager.table requestId := by
    rintro rfl
    exact ⟨by simp, distinct, .refl requestId manager, fun _ => id⟩
  unfold SingleTypeKVCacheManager.saveNewComputedBlocks
  split
  · split
    · exact id
    · rename_i none
      exact unchanged (not_not.mp none)
  · split
    · exact id
    · rename_i none
      have empty := not_not.mp none
      have replaced := holders_setTable requestId blocks manager
      rw [empty, Multiset.coe_nil, add_zero, add_comm] at replaced
      refine ⟨replaced, distinct.setTable once, ⟨rfl, rfl, rfl,
        (frame_setTable requestId blocks manager).table⟩, ?_⟩
      rw [empty]
      exact fun _ member => (nomatch member)
  · split
    · exact id
    · rename_i none
      exact unchanged (not_not.mp none)

theorem saveNewComputedBlocks_spec (requestId : Nat) :
    ∀ (managers : List SingleTypeKVCacheManager) (hits : List (List Nat)),
      hits.length = managers.length → (∀ blocks ∈ hits, DistinctBlocks blocks) →
        (∀ manager ∈ managers, manager.Distinct) →
          Safely (fun managers' =>
            holdersOf managers' = (hits.flatten : Multiset Nat) + holdersOf managers ∧
              (∀ manager ∈ managers', manager.Distinct) ∧
              List.Forall₂ (SingleTypeKVCacheManager.Frame requestId) managers managers' ∧
              ∀ b, ∀ manager ∈ managers, b ∈ manager.table requestId →
                ∃ manager ∈ managers', b ∈ manager.table requestId)
            (saveNewComputedBlocks requestId managers hits) := by
  intro managers
  induction managers with
  | nil =>
    intro hits sameLength _ distinct
    rw [List.eq_nil_of_length_eq_zero sameLength]
    exact ⟨by simp, distinct, .nil, fun _ _ isManager => (nomatch isManager)⟩
  | cons manager managers ih =>
    intro hits sameLength once distinct
    cases hits with
    | nil => exact id
    | cons blocks hits =>
      obtain ⟨onceHead, onceRest⟩ := List.forall_mem_cons.mp once
      obtain ⟨distinctHead, distinctRest⟩ := List.forall_mem_cons.mp distinct
      rw [saveNewComputedBlocks]
      refine (saveNewComputedBlocks_one onceHead distinctHead).bind ?_
      rintro first ⟨holdersFirst, distinctFirst, frameFirst, staysFirst⟩
      refine (ih hits (Nat.succ_injective sameLength) onceRest distinctRest).bind ?_
      rintro rest ⟨holdersRest, distinctLast, frameRest, staysRest⟩
      refine ⟨?_, List.forall_mem_cons.mpr ⟨distinctFirst, distinctLast⟩,
        .cons frameFirst frameRest, ?_⟩
      · rw [holdersOf_cons, holdersOf_cons, holdersFirst, holdersRest, List.flatten_cons,
          ← Multiset.coe_add]
        abel
      · intro b m isManager inTable
        rcases List.mem_cons.mp isManager with rfl | isManager
        · exact ⟨first, List.mem_cons_self, staysFirst b inTable⟩
        · obtain ⟨m', isManager', stays⟩ := staysRest b m isManager inTable
          exact ⟨m', List.mem_cons_of_mem _ isManager', stays⟩

/-! ## Slots -/

/-- The arguments of an allocation: one list of blocks per group, a hit for the request in the
present state of the cache. -/
structure SlotArgs.Valid (args : SlotArgs H) (m : KVCacheManager H) : Prop where
  perGroup : args.newComputedBlocks.length = m.singleTypeManagers.length
  hashes : args.request.blockHashes.Nodup
  hits : m.blockPool.Hits args.request.blockHashes args.newComputedBlocks

theorem emptyKVCacheBlocks_perGroup (m : KVCacheManager H) (hashes : List H) :
    List.Forall₂ (m.blockPool.HitFor hashes) (List.range m.singleTypeManagers.length)
      m.emptyKVCacheBlocks := by
  refine List.forall₂_iff_get.mpr ⟨?_, fun i inside inHits => ?_⟩
  · rw [List.length_range, emptyKVCacheBlocks, List.length_map]
  · simp only [emptyKVCacheBlocks, List.get_eq_getElem, List.getElem_map]
    exact hitFor_nil hashes _

/-- `get_computed_blocks` finds a hit for every group, in the order of the groups. -/
theorem getComputedBlocks_perGroup {request : Request H} {hits : List (List Nat)} {n : Nat}
    (computed : m.getComputedBlocks request = .ok (hits, n)) :
    List.Forall₂ (m.blockPool.HitFor request.blockHashes)
      (List.range m.singleTypeManagers.length) hits := by
  unfold getComputedBlocks at computed
  split at computed
  · cases computed
    exact emptyKVCacheBlocks_perGroup m _
  · unfold findLongestCacheHit at computed
    split at computed
    · rename_i manager isOnly
      obtain ⟨blocks, search, finish⟩ := bind_eq_ok.mp computed
      cases finish
      rw [isOnly]
      exact hitFor_of_forall₂ (if_pos rfl) (findLongestCacheHit_hits search)
    · obtain ⟨groups, splits, search⟩ := bind_eq_ok.mp computed
      have inOrder := verifyAndSplitKVCacheGroups_groupIds splits
      rw [List.length_map] at inOrder
      rw [← inOrder]
      exact hybridHit_perGroup search

theorem emptyKVCacheBlocks_cachedIn (m : KVCacheManager H) (specs : List KVCacheSpec) :
    List.Forall₂ (fun groupId blocks =>
        isFullGroup specs groupId = true → m.blockPool.CachedIn groupId blocks)
      (List.range m.singleTypeManagers.length) m.emptyKVCacheBlocks := by
  have empty := emptyKVCacheBlocks_perGroup m []
  refine List.forall₂_iff_zip.mpr ⟨empty.length_eq, fun {groupId blocks} isPair _ => ?_⟩
  obtain ⟨_, _, rfl⟩ := List.mem_map.mp (List.of_mem_zip isPair).2
  exact fun _ member => absurd member List.not_mem_nil

theorem getComputedBlocks_cachedIn {request : Request H} {hits : List (List Nat)} {n : Nat}
    (computed : m.getComputedBlocks request = .ok (hits, n)) :
    List.Forall₂ (fun groupId blocks =>
        isFullGroup (m.singleTypeManagers.map (·.kvCacheSpec)) groupId = true →
          m.blockPool.CachedIn groupId blocks)
      (List.range m.singleTypeManagers.length) hits := by
  unfold getComputedBlocks at computed
  split at computed
  · cases computed
    exact emptyKVCacheBlocks_cachedIn m _
  · unfold findLongestCacheHit at computed
    split at computed
    · rename_i manager isOnly
      obtain ⟨blocks, search, finish⟩ := bind_eq_ok.mp computed
      cases finish
      rw [isOnly]
      have sameLength := (findLongestCacheHit_hits search).length_eq
      refine List.forall₂_iff_zip.mpr ⟨sameLength, fun {groupId hit} isPair isFull => ?_⟩
      have isZero : groupId = 0 := by simpa using (List.of_mem_zip isPair).1
      subst isZero
      have full : manager.kvCacheSpec.attention = .full := by simpa [isFullGroup] using isFull
      exact List.forall₂_zip (findLongestCacheHit_cachedIn full search) isPair
    · obtain ⟨groups, splits, search⟩ := bind_eq_ok.mp computed
      have inOrder := verifyAndSplitKVCacheGroups_groupIds splits
      rw [List.length_map] at inOrder
      rw [← inOrder]
      exact hybridHit_cachedIn splits search

theorem SlotArgs.Valid.of_sameCache {args : SlotArgs H} (valid : args.Valid m)
    (sameLength : m'.singleTypeManagers.length = m.singleTypeManagers.length)
    (same : SameCache m.blockPool m'.blockPool) : args.Valid m' := by
  refine ⟨valid.perGroup.trans sameLength.symm, valid.hashes, fun blocks member => ?_⟩
  obtain ⟨groupId, blockSize, groupHashes, merged, hits⟩ := valid.hits blocks member
  refine ⟨groupId, blockSize, groupHashes, ?_, ?_⟩
  · rw [← merged, groupBlockHashes, groupBlockHashes, same.hashBlockSize]
  · rw [HitsAt, same.cached]
    exact hits

variable {args : SlotArgs H}

theorem flatten_of_none {hits : List (List Nat)}
    (none : ¬ (hits.any fun blocks => !blocks.isEmpty) = true) : hits.flatten = [] := by
  rw [List.flatten_eq_nil_iff]
  intro blocks member
  have notAny := mt List.any_eq_true.mpr none
  by_contra nonempty
  exact notAny ⟨blocks, member, by simpa using nonempty⟩

theorem Ok.touchComputedBlocks (ok : m.Ok) (valid : args.Valid m) :
    Safely (fun pool =>
      pool.Ok ((args.newComputedBlocks.flatten : Multiset Nat) + m.holders) ∧
        SameCache m.blockPool pool ∧ pool.view.kept = m.blockPool.view.kept)
      (m.touchComputedBlocks args) := by
  have inRange : ∀ b ∈ args.newComputedBlocks.flatten, b < m.blockPool.numGpuBlocks := by
    intro b member
    obtain ⟨blocks, isHit, inBlocks⟩ := List.mem_flatten.mp member
    exact valid.hits.valid ok.pool.cache ok.pool.positive isHit inBlocks
  unfold KVCacheManager.touchComputedBlocks
  split
  · obtain ⟨pool, touched, okPool, same, flags⟩ := ok.pool.touchAll _ inRange
    rw [BlockPool.touch, touched]
    exact ⟨okPool, same, flags⟩
  · split
    · exact id
    · rename_i none
      rw [flatten_of_none none, Multiset.coe_nil, zero_add]
      exact ⟨ok.pool, .refl _, rfl⟩

theorem Ok.saveComputedBlocks (ok : m.Ok) (valid : args.Valid m) :
    Safely (fun managers =>
      holdersOf managers = (args.newComputedBlocks.flatten : Multiset Nat) + m.holders ∧
        (∀ manager ∈ managers, manager.Distinct) ∧
        List.Forall₂ (SingleTypeKVCacheManager.Frame args.request.requestId) m.singleTypeManagers
          managers ∧
        ∀ b, ∀ manager ∈ m.singleTypeManagers, b ∈ manager.table args.request.requestId →
          ∃ manager ∈ managers, b ∈ manager.table args.request.requestId)
      (m.saveComputedBlocks args) := by
  unfold KVCacheManager.saveComputedBlocks
  split
  · exact saveNewComputedBlocks_spec _ _ _ valid.perGroup
      (fun _ => valid.hits.distinct ok.pool.cache valid.hashes) ok.distinct
  · rename_i none
    rw [flatten_of_none none, Multiset.coe_nil, zero_add]
    exact ⟨rfl, ok.distinct, forall₂_frame_refl _ _, fun _ manager isManager inTable =>
      ⟨manager, isManager, inTable⟩⟩

theorem Ok.addComputedBlocks (ok : m.Ok) (valid : args.Valid m) :
    Safely (Effect args.request.requestId [] m) (m.addComputedBlocks args) := by
  unfold KVCacheManager.addComputedBlocks
  refine (ok.touchComputedBlocks valid).bind ?_
  rintro pool ⟨okPool, same, flags⟩
  refine (ok.saveComputedBlocks valid).bind ?_
  rintro managers ⟨sameHolders, distinct, frame, stays⟩
  rw [← sameHolders] at okPool
  refine ⟨⟨okPool, distinct⟩, rfl, rfl, rfl, rfl, frame, ?_, same.toSameConfig, ?_, ?_⟩
  · rintro b ⟨manager, isManager, inTable⟩
    exact Or.inl (stays b manager isManager inTable)
  · intro other b _ _ key isHashed
    exact (same.blockHash b).trans isHashed
  · intro b isPinned
    exact Or.inl ((congrFun flags b).symm.trans isPinned)

theorem Ok.takeComputedBlocks (ok : m.Ok) (valid : args.Valid m) :
    Safely (fun (_, m') => Effect args.request.requestId
      (m.outOfWindow args.request.requestId args.request.numComputedTokens) m m')
      (m.takeComputedBlocks args) := by
  unfold KVCacheManager.takeComputedBlocks
  split
  · exact id
  · refine (ok.removeSkippedBlocks _ _).bind ?_
    rintro m₁ ⟨removed, same⟩
    refine (getNumBlocksToAllocate_spec _ _ _ _ _ _).bind ?_
    rintro ⟨n, _⟩ rfl
    have counted := removed.trans (removed.ok.withEntry args.request.requestId)
    dsimp only
    split
    · exact counted
    · have stillValid : args.Valid { m₁ with
          singleTypeManagers := m₁.singleTypeManagers.map
            (SingleTypeKVCacheManager.withEntry args.request.requestId) } :=
        valid.of_sameCache counted.frame.length_eq.symm same
      exact (counted.ok.addComputedBlocks stillValid).bind fun _ added => counted.trans added

variable [DecidableEq H]

theorem allocateNewBlocks_keeps (requestId : Nat) (numTokens numEncoderTokens : Int) :
    Keeps (H := H) requestId (fun _ => []) fun pool manager =>
      manager.allocateNewBlocks requestId
        (match manager.kvCacheSpec.attention with
          | .cross => numEncoderTokens
          | _ => numTokens) pool :=
  fun pool manager => SingleTypeKVCacheManager.allocateNewBlocks_keeps _ _ pool manager

theorem Ok.allocateNewBlocks (ok : m.Ok) (requestId : Nat) (numTokens numEncoderTokens : Int) :
    Safely (fun (_, pool, managers) =>
      Effect requestId [] m { m with blockPool := pool, singleTypeManagers := managers })
      (allocateNewBlocks requestId numTokens numEncoderTokens m.blockPool
        m.singleTypeManagers) := by
  have start := ok.pool
  rw [holders, ← add_zero (holdersOf m.singleTypeManagers)] at start
  refine (forEachManager_keeps (allocateNewBlocks_keeps requestId numTokens numEncoderTokens) _ _ _
    start ok.distinct).mono ?_
  rintro ⟨_, pool, managers⟩ kept
  have nothing : m.singleTypeManagers.flatMap (fun _ => ([] : List Nat)) = [] := by simp
  rw [nothing] at kept
  exact KeptAll.effect kept

theorem Ok.cacheBlocks (ok : m.Ok) (request : Request H) (numTokens : Int) :
    Safely (Effect request.requestId [] m)
      (m.onManagers (SingleTypeKVCacheManager.cacheBlocks request numTokens)) := by
  refine (ok.onManagers (cacheBlocks_keeps request numTokens)).mono ?_
  rintro m' ⟨effect, -⟩
  have nothing : m.singleTypeManagers.flatMap (fun _ => ([] : List Nat)) = [] := by simp
  rw [nothing] at effect
  exact effect

theorem Ok.allocateSlots (ok : m.Ok) (valid : args.Valid m) :
    Safely (fun (_, m') => Effect args.request.requestId
      (m.outOfWindow args.request.requestId args.request.numComputedTokens) m m')
      (m.allocateSlots args) := by
  unfold KVCacheManager.allocateSlots
  refine (ok.takeComputedBlocks valid).bind ?_
  rintro ⟨fits, m₁⟩ taken
  dsimp only
  split
  · exact taken
  · refine (taken.ok.allocateNewBlocks _ _ _).bind ?_
    rintro ⟨newBlocks, pool, managers⟩ allocated
    dsimp only
    have filled := taken.trans allocated
    split
    · exact filled
    · refine (allocated.ok.cacheBlocks _ _).bind fun m₂ cached => ?_
      have hashed := filled.trans cached
      split
      · exact hashed.trans (cached.ok.pinRequest _)
      · exact hashed

end KVCacheManager

end Kalypso.Engine
