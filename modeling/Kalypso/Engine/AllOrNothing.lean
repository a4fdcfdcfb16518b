import Kalypso.Engine.Refusal

/-!
# Allocation, all or nothing

A refused allocation should leave everything as it is, and an allocation that is not refused
should find the blocks that every group lacks.  Both are traced to the state in which the free
blocks are counted.
-/

set_option autoImplicit false

namespace Kalypso.Engine

open Kalypso.Lib BlockPool

/-- What `get_new_blocks` may raise. -/
def EngineError.RaisedByGetNewBlocks : EngineError → Prop
  | .notEnoughFreeBlocks | .freeListOutOfSync | .newBlockReferenced => True
  | _ => False

/-! ## Entries of refused requests -/

namespace KVCacheManager

variable {H : Type} {m m₁ : KVCacheManager H} {args : SlotArgs H}

theorem withEntries_eq_iff {requestId : Nat} :
    m.withEntries requestId = m ↔
      ∀ manager ∈ m.singleTypeManagers, manager.reqToBlocks.get? requestId ≠ none := by
  have asMap : m.withEntries requestId = m ↔
      m.singleTypeManagers.map (SingleTypeKVCacheManager.withEntry requestId) =
        m.singleTypeManagers.map id := by
    rw [List.map_id]
    constructor
    · exact congrArg KVCacheManager.singleTypeManagers
    · intro same
      rw [withEntries, same]
  rw [asMap, List.map_inj_left]
  exact forall₂_congr fun manager _ => SingleTypeKVCacheManager.withEntry_eq_iff

end KVCacheManager

/-! ## The blocks of the hit -/

namespace SingleTypeKVCacheManager

variable {requestId : Nat} {manager manager' : SingleTypeKVCacheManager} {hit : List Nat}

/-- The assertions of `save_new_computed_blocks`: a new request has no blocks yet, and there is no
hit for a running one or for cross-attention. -/
def AcceptsHit (requestId : Nat) (manager : SingleTypeKVCacheManager) (hit : List Nat) : Prop :=
  match manager.kvCacheSpec.attention, manager.numCachedBlock.get? requestId with
  | .cross, _ => hit = []
  | _, none => manager.table requestId = []
  | _, some _ => hit = []

structure Gained (requestId : Nat) (hit : List Nat) (manager manager' : SingleTypeKVCacheManager) :
    Prop where
  kvCacheSpec : manager'.kvCacheSpec = manager.kvCacheSpec
  blockSize : manager'.blockSize = manager.blockSize
  length : (manager'.table requestId).length = hit.length + (manager.table requestId).length

theorem Gained.missing (gained : Gained requestId hit manager manager')
    (numTokens numEncoderTokens : Int) :
    manager'.missing requestId (manager'.slotTokens numTokens numEncoderTokens) [] =
      manager.missing requestId (manager.slotTokens numTokens numEncoderTokens) hit := by
  simp only [SingleTypeKVCacheManager.missing, slotTokens, numTokensWithSpeculative,
    gained.kvCacheSpec, gained.blockSize, gained.length, List.length_nil, Int.natCast_add]
  omega

theorem Gained.refl (requestId : Nat) (manager : SingleTypeKVCacheManager) :
    Gained requestId [] manager manager :=
  ⟨rfl, rfl, (Nat.zero_add _).symm⟩

theorem gained_setTable (empty : manager.table requestId = []) (hit : List Nat)
    (numCached : Dict Nat Nat) :
    Gained requestId hit manager
      { manager.setTable requestId hit with numCachedBlock := numCached } := by
  refine ⟨rfl, rfl, ?_⟩
  have isHit : (manager.setTable requestId hit).table requestId = hit := by
    rw [table_setTable, if_pos rfl]
  rw [empty, List.length_nil, Nat.add_zero]
  exact congrArg List.length isHit

/-- `save_new_computed_blocks` raises exactly when an assertion fails. -/
theorem saveNewComputedBlocks_outcome (requestId : Nat) (hit : List Nat)
    (manager : SingleTypeKVCacheManager) :
    Meets (fun e => ¬ manager.AcceptsHit requestId hit ∧ ¬ e.RaisedByGetNewBlocks)
      (fun manager' => manager.AcceptsHit requestId hit ∧ Gained requestId hit manager manager')
      (manager.saveNewComputedBlocks requestId hit) := by
  unfold AcceptsHit saveNewComputedBlocks
  cases manager.kvCacheSpec.attention with
  | cross =>
    dsimp only
    split
    · rename_i isHit
      exact ⟨isHit, id⟩
    · rename_i noHit
      obtain rfl := not_not.mp noHit
      exact ⟨rfl, .refl requestId manager⟩
  | _ =>
    cases manager.numCachedBlock.get? requestId with
    | none =>
      dsimp only
      split
      · rename_i hasBlocks
        exact ⟨hasBlocks, id⟩
      · rename_i noBlocks
        have empty := not_not.mp noBlocks
        exact ⟨empty, gained_setTable empty hit _⟩
    | some numCached =>
      dsimp only
      split
      · rename_i isHit
        exact ⟨isHit, id⟩
      · rename_i noHit
        obtain rfl := not_not.mp noHit
        exact ⟨rfl, .refl requestId manager⟩

end SingleTypeKVCacheManager

namespace KVCacheManager

variable {H : Type} {m m₁ : KVCacheManager H} {args : SlotArgs H}

/-- What the groups lack besides the hit, they lack once the hit is in their tables. -/
theorem saveNewComputedBlocks_outcome (requestId : Nat) (numTokens numEncoderTokens : Int) :
    ∀ {managers : List SingleTypeKVCacheManager} {hits : List (List Nat)},
      hits.length = managers.length →
        Meets (fun e =>
            ¬ List.Forall₂ (SingleTypeKVCacheManager.AcceptsHit requestId) managers hits ∧
              ¬ e.RaisedByGetNewBlocks)
          (fun managers' =>
            List.Forall₂ (SingleTypeKVCacheManager.AcceptsHit requestId) managers hits ∧
              missing requestId numTokens numEncoderTokens managers' (managers'.map fun _ => []) =
                missing requestId numTokens numEncoderTokens managers hits)
          (saveNewComputedBlocks requestId managers hits) := by
  intro managers
  induction managers with
  | nil =>
    intro hits sameLength
    rw [List.eq_nil_of_length_eq_zero sameLength]
    exact ⟨.nil, rfl⟩
  | cons manager managers ih =>
    intro hits sameLength
    cases hits with
    | nil => cases sameLength
    | cons hit hits =>
      rw [saveNewComputedBlocks]
      have first := manager.saveNewComputedBlocks_outcome requestId hit
      have rest := ih (Nat.succ_injective sameLength)
      refine Meets.bind (first.weaken ?_) ?_
      · rintro e ⟨rejects, other⟩
        exact ⟨fun accepts => rejects (List.forall₂_cons.mp accepts).1, other⟩
      · rintro manager' ⟨atHead, gained⟩
        refine Meets.bind (rest.weaken ?_) ?_
        · rintro e ⟨rejects, other⟩
          exact ⟨fun accepts => rejects (List.forall₂_cons.mp accepts).2, other⟩
        · rintro managers' ⟨accepts, sameMissing⟩
          refine ⟨.cons atHead accepts, ?_⟩
          simp only [missing, List.map_cons, List.zipWith_cons_cons, gained.missing]
            at sameMissing ⊢
          rw [sameMissing]

def SlotArgs.Accepted (args : SlotArgs H) (m : KVCacheManager H) : Prop :=
  args.newComputedBlocks.flatten = [] ∨
    List.Forall₂ (SingleTypeKVCacheManager.AcceptsHit args.request.requestId)
      m.singleTypeManagers args.newComputedBlocks

theorem eq_empty_of_flatten {managers : List SingleTypeKVCacheManager} {hits : List (List Nat)}
    (sameLength : hits.length = managers.length) (empty : hits.flatten = []) :
    hits = managers.map fun _ => [] := by
  rw [List.map_const', ← sameLength]
  exact List.eq_replicate_iff.mpr ⟨rfl, List.flatten_eq_nil_iff.mp empty⟩

theorem saveComputedBlocks_outcome (valid : args.Valid m) (numTokens numEncoderTokens : Int) :
    Meets (fun e => ¬ args.Accepted m ∧ ¬ e.RaisedByGetNewBlocks)
      (fun managers' => args.Accepted m ∧
        missing args.request.requestId numTokens numEncoderTokens managers'
            (managers'.map fun _ => []) =
          missing args.request.requestId numTokens numEncoderTokens m.singleTypeManagers
            args.newComputedBlocks)
      (m.saveComputedBlocks args) := by
  unfold KVCacheManager.saveComputedBlocks
  split
  · rename_i isHit
    have nonempty : args.newComputedBlocks.flatten ≠ [] := by
      obtain ⟨blocks, isBlocks, notEmpty⟩ := List.any_eq_true.mp isHit
      intro empty
      rw [List.flatten_eq_nil_iff.mp empty blocks isBlocks] at notEmpty
      cases notEmpty
    have outcome := saveNewComputedBlocks_outcome args.request.requestId numTokens
      numEncoderTokens valid.perGroup
    refine (outcome.weaken ?_).mono ?_
    · rintro e ⟨rejects, other⟩
      exact ⟨fun accepted => rejects (accepted.resolve_left nonempty), other⟩
    · rintro managers' ⟨accepts, sameMissing⟩
      exact ⟨Or.inr accepts, sameMissing⟩
  · rename_i none
    have empty := flatten_of_none none
    refine ⟨Or.inl empty, ?_⟩
    rw [eq_empty_of_flatten valid.perGroup empty]

/-- The blocks of the hit that waited in the free queue have left it. -/
theorem Ok.touchComputedBlocks_free (ok : m.Ok) (proper : args.Proper m) :
    ∃ pool, m.touchComputedBlocks args = .ok pool ∧
      pool.getNumFreeBlocks + m.waitingHits args = m.blockPool.getNumFreeBlocks := by
  have touched : ∃ pool, m.touchComputedBlocks args = .ok pool := by
    cases caching : m.enableCaching with
    | true =>
      have inRange : ∀ b ∈ args.newComputedBlocks.flatten, b < m.blockPool.numGpuBlocks := by
        intro b member
        obtain ⟨blocks, isHit, inBlocks⟩ := List.mem_flatten.mp member
        exact proper.valid.hits.valid ok.pool.cache ok.pool.positive isHit inBlocks
      obtain ⟨pool, touched, -⟩ := ok.pool.touchAll _ inRange
      exact ⟨pool, (if_pos caching).trans touched⟩
    | false =>
      have empty := eq_empty_of_flatten proper.valid.perGroup (proper.uncached caching)
      refine ⟨m.blockPool, ?_⟩
      rw [KVCacheManager.touchComputedBlocks, caching, empty]
      simp
  obtain ⟨pool, touched⟩ := touched
  obtain ⟨okPool, same, flags⟩ := (ok.touchComputedBlocks proper.valid).ok touched
  refine ⟨pool, touched, ?_⟩
  have refs := okPool.refs
  rw [same.numGpuBlocks] at refs
  have once : (args.newComputedBlocks.flatten.filter (· ∈ m.blockPool.view.free)).Nodup := by
    refine List.Nodup.sublist (List.monotone_filter_right _ fun b waits => ?_) proper.once
    have isFree : b ∈ m.blockPool.view.free := of_decide_eq_true waits
    exact decide_eq_true (ok.pool.refs.within b isFree).1
  have count : pool.freeBlockQueue.blocks.length +
      args.newComputedBlocks.flatten.countP (· ∈ m.blockPool.freeBlockQueue.blocks) =
        m.blockPool.freeBlockQueue.blocks.length :=
    ok.pool.refs.length_free refs flags once
  have before := ok.pool.numFree
  have after := okPool.numFree
  unfold getNumFreeBlocks waitingHits
  omega

theorem Ok.addComputedBlocks_outcome (ok : m.Ok) (proper : args.Proper m) :
    Meets (fun e => ¬ args.Accepted m ∧ ¬ e.RaisedByGetNewBlocks)
      (fun m₂ => args.Accepted m ∧ m₂.Ok ∧ m₂.maxModelLen = m.maxModelLen ∧
        m₂.blockPool.getNumFreeBlocks + m.waitingHits args = m.blockPool.getNumFreeBlocks ∧
        missing args.request.requestId (m.numTokensNeedSlot args) args.numEncoderTokens
          m₂.singleTypeManagers (m₂.singleTypeManagers.map fun _ => []) = m.missingFor args)
      (m.addComputedBlocks args) := by
  obtain ⟨pool, touched, fewer⟩ := ok.touchComputedBlocks_free proper
  have outcome : Meets (fun e => ¬ args.Accepted m ∧ ¬ e.RaisedByGetNewBlocks)
      (fun m₂ => args.Accepted m ∧ m₂.maxModelLen = m.maxModelLen ∧
        m₂.blockPool.getNumFreeBlocks + m.waitingHits args = m.blockPool.getNumFreeBlocks ∧
        missing args.request.requestId (m.numTokensNeedSlot args) args.numEncoderTokens
          m₂.singleTypeManagers (m₂.singleTypeManagers.map fun _ => []) = m.missingFor args)
      (m.addComputedBlocks args) := by
    unfold KVCacheManager.addComputedBlocks
    rw [touched]
    refine (saveComputedBlocks_outcome proper.valid (m.numTokensNeedSlot args)
      args.numEncoderTokens).bind ?_
    rintro managers ⟨accepted, sameMissing⟩
    exact ⟨accepted, rfl, fewer, sameMissing⟩
  refine (outcome.and (ok.addComputedBlocks proper.valid)).mono ?_
  rintro m₂ ⟨⟨accepted, sameLen, fewer, sameMissing⟩, effect⟩
  exact ⟨accepted, effect.ok, sameLen, fewer, sameMissing⟩

theorem accepted_withEntries :
    args.Accepted (m.withEntries args.request.requestId) ↔ args.Accepted m := by
  have atGroup : ∀ (manager : SingleTypeKVCacheManager) (hit : List Nat),
      (manager.withEntry args.request.requestId).AcceptsHit args.request.requestId hit ↔
        manager.AcceptsHit args.request.requestId hit := by
    intro manager hit
    unfold SingleTypeKVCacheManager.AcceptsHit
    rw [SingleTypeKVCacheManager.table_withEntry]
    rfl
  unfold SlotArgs.Accepted withEntries
  rw [List.forall₂_map_left_iff]
  exact or_congr Iff.rfl ⟨fun accepts => accepts.imp fun manager hit => (atGroup manager hit).mp,
    fun accepts => accepts.imp fun manager hit => (atGroup manager hit).mpr⟩

theorem missingFor_withEntries (requestId : Nat) :
    (m.withEntries requestId).missingFor args = m.missingFor args := by
  unfold missingFor missing withEntries
  rw [List.zipWith_map_left]
  congr 1
  funext manager hit
  simp only [SingleTypeKVCacheManager.missing, SingleTypeKVCacheManager.table_withEntry]
  rfl

end KVCacheManager

/-! ## The new blocks -/

theorem BlockPool.Ok.getNumFreeBlocks_nonneg {H : Type} {pool : BlockPool H}
    {holders : Multiset Nat} (ok : pool.Ok holders) : 0 ≤ pool.getNumFreeBlocks := by
  rw [getNumFreeBlocks, ok.numFree]
  exact Int.natCast_nonneg _

section

variable {H : Type} [DecidableEq H]

theorem SingleTypeKVCacheManager.allocateNewBlocks_outcome {pool : BlockPool H}
    {holders : Multiset Nat} (ok : pool.Ok holders) (requestId : Nat) (numTokens : Int)
    (manager : SingleTypeKVCacheManager) :
    Meets (fun e => e = .notEnoughFreeBlocks ∧
        pool.getNumFreeBlocks < max (manager.missing requestId numTokens []) 0)
      (fun (_, pool', _) => max (manager.missing requestId numTokens []) 0 ≤ pool.getNumFreeBlocks ∧
        pool'.getNumFreeBlocks =
          pool.getNumFreeBlocks - max (manager.missing requestId numTokens []) 0)
      (manager.allocateNewBlocks requestId numTokens pool) := by
  have isMissing : cdiv (manager.numTokensWithSpeculative numTokens) manager.blockSize -
      (manager.table requestId).length = manager.missing requestId numTokens [] := by
    rw [missing, List.length_nil, Int.natCast_zero, Int.sub_zero]
  unfold allocateNewBlocks
  dsimp only
  rw [isMissing]
  generalize manager.missing requestId numTokens [] = needed
  split
  · rename_i nothing
    rw [max_eq_right nothing]
    exact ⟨ok.getNumFreeBlocks_nonneg, (Int.sub_zero _).symm⟩
  · rename_i some
    have positive : max needed 0 = (needed.toNat : Int) := by omega
    rw [positive]
    by_cases enough : (needed.toNat : Int) ≤ pool.getNumFreeBlocks
    · obtain ⟨pool', returns, -, renewed⟩ := ok.getNewBlocks enough
      rw [returns]
      exact ⟨enough, congrArg FreeKVCacheBlockQueue.numFreeBlocks renewed.queue⟩
    · rw [BlockPool.getNewBlocks, if_pos (Int.not_le.mp enough)]
      exact ⟨rfl, Int.not_le.mp enough⟩

namespace KVCacheManager

/-- The groups are served one after the other; all are served exactly when there are as many free
blocks as they lack together. -/
theorem allocateNewBlocks_outcome (requestId : Nat) (numTokens numEncoderTokens : Int) :
    ∀ (managers : List SingleTypeKVCacheManager) (pool : BlockPool H) (others : Multiset Nat),
      pool.Ok (holdersOf managers + others) → (∀ manager ∈ managers, manager.Distinct) →
        Meets (fun e => e = .notEnoughFreeBlocks ∧ pool.getNumFreeBlocks < lack (missing requestId
            numTokens numEncoderTokens managers (managers.map fun _ => [])))
          (fun _ => lack (missing requestId numTokens numEncoderTokens managers
            (managers.map fun _ => [])) ≤ pool.getNumFreeBlocks)
          (allocateNewBlocks requestId numTokens numEncoderTokens pool managers) := by
  intro managers
  induction managers with
  | nil =>
    intro pool others ok _
    exact ok.getNumFreeBlocks_nonneg
  | cons manager managers ih =>
    intro pool others ok distinct
    rw [holdersOf_cons, add_assoc] at ok
    have rest := lack_nonneg (missing requestId numTokens numEncoderTokens managers
      (managers.map fun _ => []))
    have splits : lack (missing requestId numTokens numEncoderTokens (manager :: managers)
        ((manager :: managers).map fun _ => [])) =
        max (manager.missing requestId (manager.slotTokens numTokens numEncoderTokens) []) 0 +
          lack (missing requestId numTokens numEncoderTokens managers
            (managers.map fun _ => [])) := by
      simp [lack, missing]
    rw [splits]
    have outcome := manager.allocateNewBlocks_outcome ok requestId
      (manager.slotTokens numTokens numEncoderTokens)
    have keeps := SingleTypeKVCacheManager.allocateNewBlocks_keeps requestId
      (manager.slotTokens numTokens numEncoderTokens) pool manager _ ok
      (distinct manager List.mem_cons_self)
    unfold allocateNewBlocks
    rw [forEachManager]
    refine Meets.bind ((outcome.and keeps).weaken ?_) ?_
    · rintro e ⟨isShort, fewer⟩
      exact ⟨isShort, by omega⟩
    · rintro ⟨new, middle, manager'⟩ ⟨⟨enough, fewer⟩, kept⟩
      have okMiddle := kept.ok
      rw [add_left_comm] at okMiddle
      have later := ih middle _ okMiddle fun m member =>
        distinct m (List.mem_cons_of_mem _ member)
      refine Meets.bind (later.weaken ?_) ?_
      · rintro e ⟨isShort, short⟩
        exact ⟨isShort, by omega⟩
      · rintro _ enoughLater
        show _ ≤ _
        omega

end KVCacheManager

/-! ## What else is raised -/

theorem BlockPool.cacheFullBlocks_raises (hashes : List H) (blocks : List Nat)
    (numCachedBlocks numFullBlocks blockSize groupId : Nat) (pool : BlockPool H) :
    Meets (¬ EngineError.RaisedByGetNewBlocks ·) (fun _ => True)
      (pool.cacheFullBlocks hashes blocks numCachedBlocks numFullBlocks blockSize groupId) := by
  have merges : Meets (¬ EngineError.RaisedByGetNewBlocks ·) (fun _ => True)
      (pool.groupBlockHashes blockSize hashes) := by
    unfold groupBlockHashes
    split
    · exact trivial
    · split
      · exact id
      · exact trivial
  unfold cacheFullBlocks
  split
  · exact trivial
  · split
    · exact id
    · refine merges.bind fun blockHashes _ => ?_
      refine Meets.foldlM _ _ (fun entry _ pool _ => ?_) trivial
      unfold cacheBlock
      split
      · exact id
      · split
        · exact id
        · exact trivial

theorem SingleTypeKVCacheManager.cacheBlocks_raises (request : Request H) (numTokens : Int)
    (pool : BlockPool H) (manager : SingleTypeKVCacheManager) :
    Meets (¬ EngineError.RaisedByGetNewBlocks ·) (fun _ => True)
      (manager.cacheBlocks request numTokens pool) := by
  unfold cacheBlocks
  split
  · exact id
  · dsimp only
    split
    · exact trivial
    · exact (cacheFullBlocks_raises _ _ _ _ _ _ pool).bind fun _ _ => trivial

namespace KVCacheManager

variable {m m₁ : KVCacheManager H} {args : SlotArgs H}

theorem cacheBlocks_raises (request : Request H) (numTokens : Int) (m : KVCacheManager H) :
    Meets (¬ EngineError.RaisedByGetNewBlocks ·) (fun _ => True)
      (m.onManagers (SingleTypeKVCacheManager.cacheBlocks request numTokens)) := by
  have each := forEachManager_managers (Q := fun _ => True)
    (SingleTypeKVCacheManager.cacheBlocks_raises request numTokens) m.singleTypeManagers m.blockPool
  unfold onManagers
  exact each.bind fun _ _ => trivial

/-- After the hit, `get_new_blocks` raises exactly when the groups lack more blocks than there are
free ones. -/
theorem Ok.fillSlots_outcome (ok : m.Ok) (args : SlotArgs H) :
    Meets (fun e => e.RaisedByGetNewBlocks ↔ m.blockPool.getNumFreeBlocks <
        lack (missing args.request.requestId (m.numTokensNeedSlot args) args.numEncoderTokens
          m.singleTypeManagers (m.singleTypeManagers.map fun _ => [])))
      (fun _ => ¬ m.blockPool.getNumFreeBlocks <
        lack (missing args.request.requestId (m.numTokensNeedSlot args) args.numEncoderTokens
          m.singleTypeManagers (m.singleTypeManagers.map fun _ => [])))
      (m.fillSlots args) := by
  have start := ok.pool
  rw [holders, ← add_zero (holdersOf m.singleTypeManagers)] at start
  have outcome := allocateNewBlocks_outcome args.request.requestId (m.numTokensNeedSlot args)
    args.numEncoderTokens m.singleTypeManagers m.blockPool 0 start ok.distinct
  unfold fillSlots
  refine Meets.bind (outcome.weaken ?_) ?_
  · rintro e ⟨rfl, short⟩
    exact iff_of_true trivial short
  · rintro ⟨newBlocks, pool, managers⟩ enough
    have notShort := Int.not_lt.mpr enough
    dsimp only
    split
    · exact notShort
    · refine Meets.bind ((cacheBlocks_raises _ _ _).weaken fun e other => ?_) fun _ _ => ?_
      · exact iff_of_false other notShort
      · exact notShort

/-! ## All or nothing -/

/-- `allocate_slots` raises nothing that `get_new_blocks` raises, and a refusal leaves the state
`m₁` after the removal of blocks out of the window as it is. -/
def AllOrNothing (args : SlotArgs H) (m m₁ : KVCacheManager H) : Prop :=
  (∀ e, m.allocateSlots args = .error e → ¬ e.RaisedByGetNewBlocks) ∧
    ∀ m', m.allocateSlots args = .ok (none, m') → m' = m₁

section

variable (nonzero : args.numNewTokens ≠ 0)
  (removed : m.removeSkippedBlocks args.request.requestId args.request.numComputedTokens = .ok m₁)
  (ok : m₁.Ok) (proper : args.Proper m₁)

include nonzero removed ok proper

/-- An allocation that is not refused raises what `get_new_blocks` raises exactly when the free
blocks are short. -/
theorem allocateSlots_granted_outcome (enough : ¬ m₁.SeemsShort args) :
    Meets (fun e => e.RaisedByGetNewBlocks ↔ args.Accepted m₁ ∧ m₁.Short args)
      (fun _ => ¬ (args.Accepted m₁ ∧ m₁.Short args)) (m.allocateSlots args) := by
  have effect := ok.withEntry args.request.requestId
  have properEntries : args.Proper (m₁.withEntries args.request.requestId) :=
    proper.of_effect effect (.refl _)
  have outcome := effect.ok.addComputedBlocks_outcome properEntries
  rw [allocateSlots_granted nonzero removed ok proper enough]
  refine Meets.bind (outcome.weaken ?_) ?_
  · rintro e ⟨rejected, other⟩
    exact iff_of_false other fun short => rejected (accepted_withEntries.mpr short.1)
  · rintro m₂ ⟨accepted, okAdded, sameLen, fewer, sameMissing⟩
    have accepted := accepted_withEntries.mp accepted
    have sameTokens : m₂.numTokensNeedSlot args = m₁.numTokensNeedSlot args := by
      unfold numTokensNeedSlot
      rw [sameLen]
    have fills := okAdded.fillSlots_outcome args
    rw [sameTokens] at fills
    have lacks : lack (missing args.request.requestId (m₁.numTokensNeedSlot args)
        args.numEncoderTokens m₂.singleTypeManagers (m₂.singleTypeManagers.map fun _ => [])) =
        lack (m₁.missingFor args) := by
      rw [← missingFor_withEntries args.request.requestId]
      exact congrArg lack sameMissing
    have before : m₂.blockPool.getNumFreeBlocks + m₁.waitingHits args =
        m₁.blockPool.getNumFreeBlocks := fewer
    rw [lacks] at fills
    have isShort : args.Accepted m₁ ∧ m₁.Short args ↔
        m₂.blockPool.getNumFreeBlocks < lack (m₁.missingFor args) := by
      unfold Short takenBlocks
      constructor
      · rintro ⟨-, short⟩
        omega
      · intro short
        exact ⟨accepted, by omega⟩
    rw [isShort]
    exact fills

end

variable {config : KVCacheConfig} {hasher : Option (BlockHasher H)}

/-- An allocation is all or nothing if and only if a request that is refused had entries in all
groups before, and an allocation that is not refused takes no more than the free blocks. -/
theorem allOrNothing_iff (free : ∀ h ∈ hasher, h.CollisionFree)
    (reachable : Reachable config hasher m) (issued : args.Issued hasher m)
    (nonzero : args.numNewTokens ≠ 0)
    (removed : m.removeSkippedBlocks args.request.requestId args.request.numComputedTokens =
      .ok m₁) :
    m.AllOrNothing args m₁ ↔
      (m₁.blockPool.getNumFreeBlocks + m₁.surplusBlocks args <
          m₁.takenBlocks args + m₁.withheldHits args →
        ∀ manager ∈ m₁.singleTypeManagers,
          manager.reqToBlocks.get? args.request.requestId ≠ none) ∧
      (m₁.takenBlocks args + m₁.withheldHits args ≤
          m₁.blockPool.getNumFreeBlocks + m₁.surplusBlocks args →
        args.Accepted m₁ → m₁.takenBlocks args ≤ m₁.blockPool.getNumFreeBlocks) := by
  have okBefore := (reachable.ok free).1
  obtain ⟨ok, proper⟩ := (issued.proper free okBefore).removeSkippedBlocks okBefore removed
  by_cases seems : m₁.SeemsShort args
  · have refused := allocateSlots_refused nonzero removed ok proper seems
    have notEnough : ¬ m₁.takenBlocks args + m₁.withheldHits args ≤
        m₁.blockPool.getNumFreeBlocks + m₁.surplusBlocks args := Int.not_le.mpr seems
    unfold AllOrNothing
    rw [refused, ← withEntries_eq_iff]
    constructor
    · rintro ⟨-, unchanged⟩
      exact ⟨fun _ => unchanged _ rfl, fun enough => absurd enough notEnough⟩
    · rintro ⟨unchanged, -⟩
      refine ⟨fun e raises => (nomatch raises), fun m' isState => ?_⟩
      cases isState
      exact unchanged seems
  · have outcome := allocateSlots_granted_outcome nonzero removed ok proper seems
    have notRefused := mt (allocateSlots_none_iff nonzero removed ok proper).mp seems
    have enough := Int.not_lt.mp seems
    unfold AllOrNothing
    constructor
    · rintro ⟨quiet, -⟩
      refine ⟨fun isSeen => absurd isSeen seems, fun _ accepted => ?_⟩
      by_contra short
      have isShort : m₁.Short args := Int.not_le.mp short
      cases result : m.allocateSlots args with
      | error e => exact quiet e result ((outcome.error result).mpr ⟨accepted, isShort⟩)
      | ok value => exact outcome.ok result ⟨accepted, isShort⟩
    · rintro ⟨-, fits⟩
      refine ⟨fun e raises isRaised => ?_, fun m' isNone => absurd ⟨m', isNone⟩ notRefused⟩
      obtain ⟨accepted, isShort⟩ := (outcome.error raises).mp isRaised
      exact absurd isShort (Int.not_lt.mpr (fits enough accepted))

end KVCacheManager

end

theorem allOrNothing_growing :
    ∃ m m₁ : KVCacheManager ContentHash,
      m.removeSkippedBlocks 7 4 = .ok m₁ ∧ m₁.SeemsShort smallGrowingArgs ∧
      m.AllOrNothing smallGrowingArgs m₁ := by
  obtain ⟨m, m₁, reachable, issued, removes, -, seems, entered⟩ := exists_smallGrowing
  exact ⟨m, m₁, removes, seems, (KVCacheManager.allOrNothing_iff (contentHasher_free 2) reachable
    issued (by decide) removes).mpr ⟨fun _ => entered, fun enough => absurd seems enough.not_gt⟩⟩

/-! ### A refused request and a raising one -/

def smallSecondRequest : Request ContentHash :=
  (Request.init { requestId := 8, promptTokenIds := [5, 6, 7, 8],
                  samplingParams := some { maxTokens := 1 } }).hashNewFullBlocks
    (some (contentHasher 2))

def smallSecondArgs : KVCacheManager.SlotArgs ContentHash :=
  ⟨smallSecondRequest, 4, 0, [[]], 0, false, 0⟩

/-- Four blocks besides the null block, for decoder layers with self-attention and
cross-attention. -/
def encoderDecoderKVCacheConfig : KVCacheConfig where
  numBlocks := 5
  groups := [⟨.full, 2⟩, ⟨.cross, 2⟩]
  maxModelLen := 4
  hashBlockSize := 2
  enableCaching := false
  useEagle := false
  worldSize := 1
  numBlocks_pos := by decide
  hashBlockSize_eq := by
    rintro spec caching
    cases caching

def encoderDecoderScheduler : Scheduler ContentHash Unit :=
  .init { smallSchedulerConfig with
    isEncoderDecoder := true
    maxNumEncoderInputTokens := 2 } none encoderDecoderKVCacheConfig ()

def audioCoreRequest (id : Nat) : EngineCoreRequest :=
  { requestId := id, promptTokenIds := [5, 6], samplingParams := some { maxTokens := 2 },
    hasEncoderInputs := true }

def runAudioRequests : List Call :=
  [.op (.add (audioCoreRequest 1)), .op (.add (audioCoreRequest 2)), .schedule,
    .update 0 (oneTokenEach [1, 2])]

/-- A request that is refused because two of three blocks are in use leaves an empty entry in the
block tables.  In an encoder-decoder model all blocks are in use and the first request needs one
more; its cross-attention block, for which a running request passes no encoder tokens, makes up
for it in the count, and the next step raises instead of preempting the other request. -/
theorem not_allOrNothing :
    (∃ m m₁ : KVCacheManager ContentHash,
      KVCacheManager.Reachable smallKVCacheConfig (some (contentHasher 2)) m ∧
      smallSecondArgs.Issued (some (contentHasher 2)) m ∧
      m.removeSkippedBlocks 8 0 = .ok m₁ ∧ ¬ m.AllOrNothing smallSecondArgs m₁) ∧
    ∃ ops s, Trace (Scheduler.Step noEncoder) encoderDecoderScheduler ops s ∧
      s.schedule noEncoder none = .error .notEnoughFreeBlocks := by
  constructor
  · have runs : ∃ m, (KVCacheManager.init smallKVCacheConfig).exec
          (.allocateSlots smallPinnedArgs) = .ok m ∧
        (∃ m₁, m.removeSkippedBlocks 8 0 = .ok m₁ ∧
          ∃ manager ∈ m₁.singleTypeManagers, manager.reqToBlocks.get? 8 = none) ∧
        ∃ result, m.allocateSlots smallSecondArgs = .ok result ∧ result.1 = none ∧
          ∀ manager ∈ result.2.singleTypeManagers, manager.reqToBlocks.get? 8 ≠ none := by
      decide +kernel
    obtain ⟨m, runs, ⟨m₁, removed, manager, isManager, isAbsent⟩, ⟨_, m'⟩, returns, rfl, present⟩ :=
      runs
    have reachable : KVCacheManager.Reachable smallKVCacheConfig (some (contentHasher 2)) m :=
      .step (.allocateSlots smallPinnedArgs) .init
        ⟨(Request.hashed_init _ _).hashNewFullBlocks, Or.inl rfl⟩ runs
    refine ⟨m, m₁, reachable, ⟨(Request.hashed_init _ _).hashNewFullBlocks, Or.inl ?_⟩, removed,
      fun whole => ?_⟩
    · cases runs
      rfl
    · obtain rfl := whole.2 m' returns
      exact present manager isManager isAbsent
  · have runs : ∃ run, encoderDecoderScheduler.calls noEncoder runAudioRequests = .ok run ∧
        (match run.scheduler.schedule noEncoder none with
          | .error e => e == .notEnoughFreeBlocks
          | .ok _ => false) = true := by
      decide +kernel
    obtain ⟨⟨s, ops, _⟩, runs, last⟩ := runs
    refine ⟨ops, s, (Scheduler.calls_trace _ _).ok runs, ?_⟩
    cases result : s.schedule noEncoder none with
    | error e =>
      simp only [result, beq_iff_eq] at last
      rw [last]
    | ok value => simp [result] at last

end Kalypso.Engine
