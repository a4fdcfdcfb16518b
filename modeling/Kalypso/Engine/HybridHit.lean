import Kalypso.Engine.LongestHit

/-!
# Longest prefix-cache hits of hybrid models

The searches for Mamba and full attention find the longest hit as the search for a sliding window
does.  The coordinator of full attention and one other type combines two of them, and the hit it
returns is the longest that both can serve.
-/

set_option autoImplicit false

namespace Kalypso.Engine

open Kalypso.Lib

namespace BlockPool

variable {H : Type} {pool : BlockPool H} {hashes : List (List H)} {groupIds : List Nat}
  {blockSize alignment window n : Nat}

/-! ## Mamba -/

variable {computed : List (List Nat)} {groups : HybridGroups} {specs : List KVCacheSpec}

theorem LongestHit.succ {length : Nat}
    (longest : pool.LongestHit hashes groupIds blockSize alignment window n length computed)
    (noHit : ¬ pool.HitOf hashes groupIds blockSize alignment window (n + 1)) :
    pool.LongestHit hashes groupIds blockSize alignment window (n + 1) length computed := by
  refine ⟨⟨⟨Nat.le_succ_of_le longest.greatest.1.1, longest.greatest.1.2⟩, ?_⟩, longest.lists⟩
  rintro k ⟨bound, hit⟩
  rcases Nat.eq_or_lt_of_le bound with rfl | below
  · exact absurd hit noHit
  · exact longest.greatest.2 ⟨Nat.le_of_lt_succ below, hit⟩

theorem mambaSearch_longest (i : Nat) (enough : i ≤ hashes.length) :
    ∃ length computed,
      pool.mambaSearch hashes groupIds blockSize alignment i = .ok computed ∧
      pool.LongestHit hashes groupIds blockSize alignment 1 i length computed := by
  induction i with
  | zero =>
    refine ⟨0, _, rfl, ⟨⟨Nat.le_refl 0, ?_, fun j _ before => absurd before (by omega)⟩, ?_⟩, ?_⟩
    · exact (Nat.zero_mul blockSize).symm ▸ Nat.dvd_zero alignment
    · exact fun k member => member.1
    · exact forall₂_replicate (fun _ => ⟨rfl, hitsAt_nil,
        fun j _ before => absurd before (by omega)⟩) groupIds
  | succ i ih =>
    obtain ⟨length, computed, search, longest⟩ := ih (by omega)
    obtain ⟨blockHash, atI⟩ : ∃ blockHash, hashes[i]? = some blockHash :=
      ⟨_, List.getElem?_eq_getElem (by omega)⟩
    rw [mambaSearch, atI]
    dsimp only
    cases lookup : pool.getCachedBlock blockHash groupIds with
    | none =>
      refine ⟨length, computed, search, longest.succ fun hit => ?_⟩
      exact not_cachedAt atI lookup (hit.2 i (by omega) (by omega))
    | some cached =>
      dsimp only
      split
      · rename_i unaligned
        refine ⟨length, computed, search, longest.succ fun hit => unaligned.2 ?_⟩
        exact Nat.mod_eq_zero_of_dvd hit.1
      · rename_i aligned
        refine ⟨i + 1, _, rfl, ⟨⟨Nat.le_refl _, dvd_of_not_unaligned aligned, ?_⟩, ?_⟩, ?_⟩
        · intro j after before
          obtain rfl : j = i := by omega
          exact cachedAt_of_found atI lookup
        · exact fun k member => member.1
        · refine List.forall₂_map_right_iff.mpr ((getCachedBlock_forall₂ lookup).imp ?_)
          intro groupId b cachedFor
          refine ⟨by simp, ?_, fun j after before => ?_⟩
          · refine (hitsAt_replicate_null i).append ?_ cachedFor
            rw [List.length_replicate]
            exact atI
          · obtain rfl : j = i := by omega
            exact ⟨blockHash, b, atI, by simp, cachedFor⟩

/-! ## Full attention -/

def TakenFor (pool : BlockPool H) (hashes : List (List H)) (k groupId : Nat) (blocks : List Nat) :
    Prop :=
  blocks.length = k ∧ pool.HitsAt hashes groupId blocks ∧ pool.Filled hashes 0 k groupId blocks

theorem TakenFor.append {k groupId b : Nat} {blocks : List Nat} {blockHash : List H}
    (taken : pool.TakenFor hashes k groupId blocks) (atK : hashes[k]? = some blockHash)
    (cached : pool.CachedFor blockHash groupId b) :
    pool.TakenFor hashes (k + 1) groupId (blocks ++ [b]) := by
  obtain ⟨rfl, hits, filled⟩ := taken
  refine ⟨by simp, hits.append atK cached, fun i _ before => ?_⟩
  rcases Nat.eq_or_lt_of_le (Nat.le_of_lt_succ before) with rfl | earlier
  · exact ⟨blockHash, b, atK, by simp, cached⟩
  · obtain ⟨other, c, atI, isBlock, isCached⟩ := filled i (Nat.zero_le i) earlier
    exact ⟨other, c, atI, by rw [List.getElem?_append_left earlier, isBlock], isCached⟩

theorem TakenFor.dropLast {k groupId : Nat} {blocks : List Nat}
    (taken : pool.TakenFor hashes (k + 1) groupId blocks) :
    pool.TakenFor hashes k groupId blocks.dropLast := by
  obtain ⟨sameLength, hits, filled⟩ := taken
  refine ⟨by rw [List.length_dropLast, sameLength]; rfl, hits.dropLast, fun i after before => ?_⟩
  rw [List.dropLast_eq_take, sameLength, Nat.add_sub_cancel]
  obtain ⟨blockHash, b, atI, isBlock, cached⟩ := filled i after (Nat.lt_succ_of_lt before)
  exact ⟨blockHash, b, atI, by rw [List.getElem?_take_of_lt before, isBlock], cached⟩

theorem length_firstGroup {R : Nat → List Nat → Prop} {m : Nat}
    (lengths : ∀ groupId blocks, R groupId blocks → blocks.length = m) (groups : groupIds ≠ [])
    (each : List.Forall₂ R groupIds computed) : (firstGroup computed).length = m := by
  cases each with
  | nil => exact absurd rfl groups
  | cons first _ => exact lengths _ _ first

theorem takeCached_longest (rest : List (List H)) :
    ∀ {k : Nat} {computed : List (List Nat)}, (hashes.take n).drop k = rest → k ≤ n →
      List.Forall₂ (pool.TakenFor hashes k) groupIds computed →
      (∀ i < k, pool.CachedAt hashes groupIds i) →
        ∃ m ≤ n, List.Forall₂ (pool.TakenFor hashes m) groupIds
            (pool.takeCached groupIds rest computed) ∧
          (∀ i < m, pool.CachedAt hashes groupIds i) ∧
          ∀ length ≤ n, (∀ i < length, pool.CachedAt hashes groupIds i) → length ≤ m := by
  induction rest with
  | nil =>
    intro k computed isRest within taken cached
    refine ⟨k, within, taken, cached, fun length bound all => Nat.le_of_not_lt fun longer => ?_⟩
    obtain ⟨blockHash, atK, -⟩ := all k longer
    have inside := (List.getElem?_eq_some_iff.mp atK).1
    have none := List.drop_eq_nil_iff.mp isRest
    rw [List.length_take] at none
    omega
  | cons blockHash rest ih =>
    intro k computed isRest within taken cached
    have atTake : (hashes.take n)[k]? = some blockHash := by
      rw [← List.head?_drop, isRest, List.head?_cons]
    have inside := (List.getElem?_eq_some_iff.mp atTake).1
    rw [List.length_take] at inside
    have atK : hashes[k]? = some blockHash := by
      rw [List.getElem?_take_of_lt (by omega)] at atTake
      exact atTake
    rw [takeCached]
    split
    · rename_i found lookup
      refine ih (k := k + 1) ?_ (by omega) ?_ fun i before => ?_
      · rw [← List.tail_drop, isRest, List.tail_cons]
      · exact forall₂_zipWith (fun _ _ _ taken cachedFor => taken.append atK cachedFor) taken
          (getCachedBlock_forall₂ lookup)
      · rcases Nat.eq_or_lt_of_le (Nat.le_of_lt_succ before) with rfl | earlier
        · exact cachedAt_of_found atK lookup
        · exact cached i earlier
    · rename_i lookup
      refine ⟨k, within, taken, cached, fun length _ all => Nat.le_of_not_lt fun longer => ?_⟩
      exact not_cachedAt atK lookup (all k longer)

theorem popUnaligned_longest (groups : groupIds ≠ []) (m : Nat) :
    ∀ {computed : List (List Nat)}, List.Forall₂ (pool.TakenFor hashes m) groupIds computed →
      ∃ length ≤ m, alignment ∣ length * blockSize ∧
        (∀ k ≤ m, alignment ∣ k * blockSize → k ≤ length) ∧
        List.Forall₂ (pool.TakenFor hashes length) groupIds
          (popUnaligned blockSize alignment m computed) := by
  induction m with
  | zero =>
    intro computed taken
    refine ⟨0, Nat.le_refl 0, ?_, fun k bound _ => bound, taken⟩
    exact (Nat.zero_mul blockSize).symm ▸ Nat.dvd_zero alignment
  | succ m ih =>
    intro computed taken
    have isLength := length_firstGroup (fun _ _ => And.left) groups taken
    rw [popUnaligned, isLength]
    split
    · rename_i unaligned
      obtain ⟨length, bound, aligned, greatest, popped⟩ :=
        ih (List.forall₂_map_right_iff.mpr (taken.imp fun _ _ => TakenFor.dropLast))
      refine ⟨length, by omega, aligned, fun k within divides => ?_, popped⟩
      rcases Nat.eq_or_lt_of_le within with rfl | below
      · exact absurd (Nat.mod_eq_zero_of_dvd divides) unaligned.2
      · exact greatest k (Nat.le_of_lt_succ below) divides
    · rename_i aligned
      exact ⟨m + 1, Nat.le_refl _, dvd_of_not_unaligned aligned, fun k within _ => within, taken⟩

theorem fullAttentionHit_longest (pool : BlockPool H) (hashes : List (List H))
    (maxLength blockSize alignment : Nat) (groups : groupIds ≠ []) :
    ∃ length, pool.LongestHit hashes groupIds blockSize alignment (maxLength / blockSize)
      (maxLength / blockSize) length
      (pool.fullAttentionHit blockSize hashes maxLength groupIds false alignment) := by
  have start : List.Forall₂ (pool.TakenFor hashes 0) groupIds (groupIds.map fun _ => []) :=
    forall₂_replicate (fun _ => ⟨rfl, hitsAt_nil, fun i _ before => absurd before (by omega)⟩)
      groupIds
  obtain ⟨m, within, taken, cached, furthest⟩ :=
    takeCached_longest (hashes.take (maxLength / blockSize)) (List.drop_zero) (Nat.zero_le _) start
      fun i before => absurd before (Nat.not_lt_zero i)
  have isLength := length_firstGroup (fun _ _ => And.left) groups taken
  obtain ⟨length, bound, aligned, greatest, popped⟩ : ∃ length ≤ m, alignment ∣ length * blockSize ∧
      (∀ k ≤ m, alignment ∣ k * blockSize → k ≤ length) ∧ _ :=
    popUnaligned_longest groups m taken
  refine ⟨length, ⟨⟨by omega, aligned, fun i _ before => cached i (by omega)⟩, ?_⟩, ?_⟩
  · rintro k ⟨inside, divides, all⟩
    refine greatest k (furthest k inside fun i before => all i ?_ before) divides
    omega
  · simp only [fullAttentionHit, Bool.false_and, Bool.false_eq_true, if_false, isLength]
    refine popped.imp fun groupId blocks taken => ⟨taken.1, taken.2.1, fun i _ before => ?_⟩
    exact taken.2.2 i (Nat.zero_le i) before

/-! ## Full attention and one other type -/

/-- The other types that a hybrid model is searched for: a window of two tokens or
more, or Mamba. -/
def Searchable (spec : KVCacheSpec) : Prop :=
  match spec.attention with
  | .slidingWindow slidingWindow => 2 ≤ slidingWindow
  | .mamba _ => True
  | .full | .chunkedLocal _ | .cross => False

/-- What a hit of `length` blocks needs in the groups of the other type: the blocks of the window,
or the last state. -/
def OtherCached (pool : BlockPool H) (spec : KVCacheSpec) (hashes : List (List H))
    (groupIds : List Nat) (length : Nat) : Prop :=
  match spec.attention with
  | .slidingWindow slidingWindow => ∀ i,
      length - min length (windowBlocks slidingWindow spec.blockSize) ≤ i → i < length →
        pool.CachedAt hashes groupIds i
  | .mamba _ => 0 < length → pool.CachedAt hashes groupIds (length - 1)
  | .full | .chunkedLocal _ | .cross => False

theorem otherHit_longest {spec : KVCacheSpec} {maxLength : Nat} (searchable : Searchable spec)
    (positive : 0 < spec.blockSize) (enough : maxLength / spec.blockSize ≤ hashes.length) :
    ∃ length computed,
      pool.findLongestCacheHit spec hashes maxLength groupIds false alignment 1 = .ok computed ∧
      IsGreatest {k | k ≤ maxLength / spec.blockSize ∧ alignment ∣ k * spec.blockSize ∧
        pool.OtherCached spec hashes groupIds k} length ∧
      List.Forall₂ (fun _ blocks => blocks.length = length) groupIds computed := by
  obtain ⟨attention, blockSize⟩ := spec
  cases attention with
  | slidingWindow slidingWindow =>
    obtain ⟨length, computed, search, longest⟩ :=
      slidingWindowHit_longest positive searchable enough
    exact ⟨length, computed, search, longest.greatest, longest.lists.imp fun _ _ => And.left⟩
  | mamba numSpeculativeBlocks =>
    obtain ⟨length, computed, search, longest⟩ := mambaSearch_longest _ enough
    have sameNeed : ∀ k, (∀ i, k - min k 1 ≤ i → i < k → pool.CachedAt hashes groupIds i) ↔
        (0 < k → pool.CachedAt hashes groupIds (k - 1)) := by
      refine fun k => ⟨fun all positive => all (k - 1) (by omega) (by omega), ?_⟩
      intro last i after before
      obtain rfl : i = k - 1 := by omega
      exact last (by omega)
    refine ⟨length, computed, search, ?_, longest.lists.imp fun _ _ => And.left⟩
    have greatest := longest.greatest
    simp only [HitOf, sameNeed] at greatest
    exact greatest
  | full => exact searchable.elim
  | chunkedLocal chunkSize => exact searchable.elim
  | cross => exact searchable.elim

/-- There is a merged hash for every whole block of the hashed tokens. -/
theorem groupBlockHashes_length (hashes : List H) (hashPositive : 0 < pool.hashBlockSize)
    (multiple : pool.hashBlockSize ∣ blockSize) :
    ∃ groupHashes, pool.groupBlockHashes blockSize hashes = .ok groupHashes ∧
      groupHashes.length = hashes.length * pool.hashBlockSize / blockSize := by
  unfold groupBlockHashes
  split
  · rename_i sameSize
    refine ⟨_, rfl, ?_⟩
    rw [List.length_map, sameSize, Nat.mul_div_cancel _ hashPositive]
  · rw [if_neg (not_not.mpr (Nat.mod_eq_zero_of_dvd multiple))]
    refine ⟨_, rfl, ?_⟩
    obtain ⟨scale, rfl⟩ := multiple
    rw [mergeBlockHashes, List.length_map, List.length_range,
      Nat.mul_div_cancel_left _ hashPositive,
      Nat.mul_comm pool.hashBlockSize scale, Nat.mul_div_mul_right _ _ hashPositive]

theorem specs_mem (splits : verifyAndSplitKVCacheGroups specs = .ok groups) :
    groups.fullAttentionSpec ∈ specs ∧ groups.otherSpec ∈ specs := by
  unfold verifyAndSplitKVCacheGroups at splits
  dsimp only at splits
  split at splits
  · rename_i full other isFull isOther
    have members : full ∈ specs ∧ other ∈ specs :=
      ⟨List.mem_of_find?_eq_some isFull, List.mem_of_find?_eq_some isOther⟩
    split at splits
    · cases splits
    · split at splits
      · cases splits
        exact members
      · split at splits
        · cases splits
          exact members
        · cases splits
  · cases splits

theorem groups_ne_nil (splits : verifyAndSplitKVCacheGroups specs = .ok groups) :
    groups.fullAttentionGroupIds ≠ [] ∧ groups.otherGroupIds ≠ [] := by
  have split := verifyAndSplitKVCacheGroups_splits splits
  obtain ⟨fullMember, otherMember⟩ := specs_mem splits
  obtain ⟨i, inside, isFull⟩ := List.getElem_of_mem fullMember
  obtain ⟨j, inside', isOther⟩ := List.getElem_of_mem otherMember
  rw [split.fullIds, split.otherIds]
  refine ⟨List.ne_nil_of_mem (List.mem_filter.mpr ⟨List.mem_range.mpr inside, ?_⟩),
    List.ne_nil_of_mem (List.mem_filter.mpr ⟨List.mem_range.mpr inside', ?_⟩)⟩
  · rw [isFullGroup, List.getElem?_eq_getElem inside, Option.any_some, isFull]
    exact decide_eq_true split.isFull
  · rw [isFullGroup, List.getElem?_eq_getElem inside', Option.any_some, isOther,
      decide_eq_false split.isOther]
    rfl

theorem LongestHit.le_length {length : Nat}
    (longest : pool.LongestHit hashes groupIds blockSize alignment n n length computed) :
    length ≤ hashes.length := by
  obtain ⟨⟨bound, -, cached⟩, -⟩ := longest.greatest
  rcases Nat.eq_zero_or_pos length with rfl | positive
  · exact Nat.zero_le _
  · obtain ⟨blockHash, isLast, -⟩ := cached (length - 1) (by omega) (by omega)
    have inside := (List.getElem?_eq_some_iff.mp isLast).1
    omega

def HybridHitOf (pool : BlockPool H) (groups : HybridGroups)
    (fullHashes otherHashes : List (List H))
    (maxLength length : Nat) : Prop :=
  groups.fullAttentionSpec.blockSize ∣ length ∧ groups.otherSpec.blockSize ∣ length ∧
    length ≤ maxLength ∧
    (∀ i < length / groups.fullAttentionSpec.blockSize,
      pool.CachedAt fullHashes groups.fullAttentionGroupIds i) ∧
    pool.OtherCached groups.otherSpec otherHashes groups.otherGroupIds
      (length / groups.otherSpec.blockSize)

/-- The longest aligned hit of the other type within the longest one of full attention is the
longest hit of both. -/
theorem isGreatest_hybrid {fullHashes otherHashes : List (List H)} {maxLength full other : Nat}
    (fullPositive : 0 < groups.fullAttentionSpec.blockSize)
    (otherPositive : 0 < groups.otherSpec.blockSize)
    (fullLongest : pool.LongestHit fullHashes groups.fullAttentionGroupIds
      groups.fullAttentionSpec.blockSize
      (Nat.lcm groups.fullAttentionSpec.blockSize groups.otherSpec.blockSize)
      (maxLength / groups.fullAttentionSpec.blockSize)
      (maxLength / groups.fullAttentionSpec.blockSize) full computed) (otherLongest : IsGreatest
      {k | k ≤ full * groups.fullAttentionSpec.blockSize / groups.otherSpec.blockSize ∧
        Nat.lcm groups.fullAttentionSpec.blockSize groups.otherSpec.blockSize ∣
          k * groups.otherSpec.blockSize ∧
        pool.OtherCached groups.otherSpec otherHashes groups.otherGroupIds k} other) :
    IsGreatest {k | pool.HybridHitOf groups fullHashes otherHashes maxLength k}
      (other * groups.otherSpec.blockSize) := by
  obtain ⟨⟨fullBound, -, fullCached⟩, fullGreatest⟩ := fullLongest.greatest
  obtain ⟨⟨otherBound, otherAligned, otherCached⟩, otherGreatest⟩ := otherLongest
  unfold HybridHitOf
  generalize groups.fullAttentionSpec.blockSize = fullSize at *
  have otherDivides := Nat.dvd_mul_left groups.otherSpec.blockSize other
  have fullDivides := (Nat.dvd_lcm_left fullSize groups.otherSpec.blockSize).trans otherAligned
  have within : other * groups.otherSpec.blockSize ≤ full * fullSize :=
    (Nat.le_div_iff_mul_le otherPositive).mp otherBound
  have fullWithin : full * fullSize ≤ maxLength := (Nat.le_div_iff_mul_le fullPositive).mp fullBound
  refine ⟨⟨fullDivides, otherDivides, within.trans fullWithin, fun i before => ?_, ?_⟩, ?_⟩
  · have inside : other * groups.otherSpec.blockSize / fullSize ≤ full :=
      Nat.div_le_of_le_mul (Nat.mul_comm full fullSize ▸ within)
    exact fullCached i (by omega) (by omega)
  · rw [Nat.mul_div_cancel _ otherPositive]
    exact otherCached
  · rintro k ⟨fullDvd, otherDvd, bound, cached, needed⟩
    have aligned := Nat.lcm_dvd fullDvd otherDvd
    have inFull : k / fullSize ≤ full := by
      refine fullGreatest ⟨Nat.div_le_div_right bound, ?_, fun i _ before => cached i before⟩
      rw [Nat.div_mul_cancel fullDvd]
      exact aligned
    have inOther : k / groups.otherSpec.blockSize ≤ other := by
      refine otherGreatest ⟨Nat.div_le_div_right ?_, ?_, needed⟩
      · rw [← Nat.div_mul_cancel fullDvd]
        exact Nat.mul_le_mul_right fullSize inFull
      · rw [Nat.div_mul_cancel otherDvd]
        exact aligned
    rw [← Nat.div_mul_cancel otherDvd]
    exact Nat.mul_le_mul_right _ inOther

/-- The lists of both types, each as long as its own hit and those of full attention cut, cover a
length that both block sizes divide. -/
theorem lists_cover (split : groups.Splits specs) {full other length : Nat}
    {fullHits otherHits : List (List Nat)}
    (fullLists : List.Forall₂ (fun _ blocks => blocks.length = full) groups.fullAttentionGroupIds
      fullHits)
    (otherLists : List.Forall₂ (fun _ blocks => blocks.length = other) groups.otherGroupIds
      otherHits) (isLength : other * groups.otherSpec.blockSize = length)
    (divides : groups.fullAttentionSpec.blockSize ∣ length)
    (within : length ≤ full * groups.fullAttentionSpec.blockSize) :
    List.Forall₂ (fun (groupId : Nat) blocks => ∀ spec, specs[groupId]? = some spec →
      blocks.length * spec.blockSize = length) groups.groupIds
      (if groups.fullAttnFirst then
        fullHits.map (List.take (length / groups.fullAttentionSpec.blockSize)) ++ otherHits
      else otherHits ++ fullHits.map
        (List.take (length / groups.fullAttentionSpec.blockSize))) := by
  have specOf : ∀ (groupId : Nat) spec, specs[groupId]? = some spec →
      spec = if isFullGroup specs groupId then groups.fullAttentionSpec else groups.otherSpec := by
    intro groupId spec found
    rw [isFullGroup, found, Option.any_some]
    rcases split.kinds spec (List.mem_of_getElem? found) with rfl | rfl
    · rw [if_pos (by simpa using split.isFull)]
    · rw [if_neg (by simpa using split.isOther)]
  have fullCovers : List.Forall₂ (fun (groupId : Nat) blocks => ∀ spec,
      specs[groupId]? = some spec → blocks.length * spec.blockSize = length)
      groups.fullAttentionGroupIds
      (fullHits.map (List.take (length / groups.fullAttentionSpec.blockSize))) := by
    obtain ⟨sameLength, lengths⟩ := List.forall₂_iff_zip.mp fullLists
    refine List.forall₂_map_right_iff.mpr (List.forall₂_iff_zip.mpr ⟨sameLength, ?_⟩)
    intro groupId blocks isPair spec found
    have isFull := (List.of_mem_zip isPair).1
    rw [split.fullIds, List.mem_filter] at isFull
    have fits := Nat.div_le_of_le_mul (Nat.mul_comm full _ ▸ within)
    rw [specOf groupId spec found, isFull.2, if_pos rfl, List.length_take, lengths isPair,
      Nat.min_eq_left fits, Nat.div_mul_cancel divides]
  have otherCovers : List.Forall₂ (fun (groupId : Nat) blocks => ∀ spec,
      specs[groupId]? = some spec → blocks.length * spec.blockSize = length)
      groups.otherGroupIds otherHits := by
    obtain ⟨sameLength, lengths⟩ := List.forall₂_iff_zip.mp otherLists
    refine List.forall₂_iff_zip.mpr ⟨sameLength, ?_⟩
    intro groupId blocks isPair spec found
    have isOther := (List.of_mem_zip isPair).1
    rw [split.otherIds, List.mem_filter, Bool.not_eq_true'] at isOther
    rw [specOf groupId spec found, isOther.2, if_neg Bool.false_ne_true, lengths isPair, isLength]
  unfold HybridGroups.groupIds
  split
  · exact List.rel_append fullCovers otherCovers
  · exact List.rel_append otherCovers fullCovers

/-- The hit of a hybrid model returns the greatest length that both types allow, and the list of
every group covers it. -/
theorem hybridHit_isGreatest (pool : BlockPool H) (specs : List KVCacheSpec) (groups : HybridGroups)
    (hashes : List H) (maxLength : Nat) (splits : verifyAndSplitKVCacheGroups specs = .ok groups)
    (searchable : Searchable groups.otherSpec) (hashPositive : 0 < pool.hashBlockSize)
    (multiples : ∀ spec ∈ specs, 0 < spec.blockSize ∧ pool.hashBlockSize ∣ spec.blockSize) :
    ∃ fullHashes otherHashes hits length,
      pool.groupBlockHashes groups.fullAttentionSpec.blockSize hashes = .ok fullHashes ∧
      pool.groupBlockHashes groups.otherSpec.blockSize hashes = .ok otherHashes ∧
      pool.hybridHit groups hashes maxLength false = .ok (hits, length) ∧
      IsGreatest {k | pool.HybridHitOf groups fullHashes otherHashes maxLength k} length ∧
      List.Forall₂ (fun spec blocks => blocks.length * spec.blockSize = length) specs hits := by
  have split := verifyAndSplitKVCacheGroups_splits splits
  obtain ⟨fullMember, otherMember⟩ := specs_mem splits
  obtain ⟨fullGroups, otherGroups⟩ := groups_ne_nil splits
  obtain ⟨fullPositive, fullMultiple⟩ := multiples _ fullMember
  obtain ⟨otherPositive, otherMultiple⟩ := multiples _ otherMember
  obtain ⟨fullHashes, fullMerged, fullCount⟩ :=
    groupBlockHashes_length hashes hashPositive fullMultiple
  obtain ⟨otherHashes, otherMerged, otherCount⟩ :=
    groupBlockHashes_length hashes hashPositive otherMultiple
  obtain ⟨full, fullLongest⟩ := fullAttentionHit_longest pool fullHashes maxLength
    groups.fullAttentionSpec.blockSize
    (Nat.lcm groups.fullAttentionSpec.blockSize groups.otherSpec.blockSize) fullGroups
  have fullLength := length_firstGroup (fun _ _ => And.left) fullGroups fullLongest.lists
  -- the hashes reach as far as the hit of full attention
  have enough : full * groups.fullAttentionSpec.blockSize / groups.otherSpec.blockSize ≤
      otherHashes.length := by
    rw [otherCount]
    refine Nat.div_le_div_right ((Nat.le_div_iff_mul_le fullPositive).mp ?_)
    exact fullCount ▸ fullLongest.le_length
  obtain ⟨other, otherHits, otherSearch, otherLongest, otherLists⟩ :=
    otherHit_longest searchable otherPositive enough
  have otherLength := length_firstGroup (fun _ _ => id) otherGroups otherLists
  have greatest := isGreatest_hybrid fullPositive otherPositive fullLongest otherLongest
  generalize isLength : other * groups.otherSpec.blockSize = length at greatest
  generalize isHits : pool.fullAttentionHit groups.fullAttentionSpec.blockSize fullHashes maxLength
    groups.fullAttentionGroupIds false
    (Nat.lcm groups.fullAttentionSpec.blockSize groups.otherSpec.blockSize) = fullHits
    at fullLongest fullLength
  have divides := Nat.mod_eq_zero_of_dvd greatest.1.1
  have fullSearch : pool.findLongestCacheHit groups.fullAttentionSpec fullHashes maxLength
      groups.fullAttentionGroupIds false (Nat.lcm groups.fullAttentionSpec.blockSize
        groups.otherSpec.blockSize) 1 = .ok fullHits := by
    rw [findLongestCacheHit, split.isFull, Nat.mul_one, isHits]
  have search : pool.hybridHit groups hashes maxLength false = .ok (if groups.fullAttnFirst then
      fullHits.map (List.take (length / groups.fullAttentionSpec.blockSize)) ++ otherHits
      else otherHits ++ fullHits.map (List.take (length / groups.fullAttentionSpec.blockSize)),
        length) := by
    simp only [hybridHit, fullMerged, otherMerged, fullSearch, bind, Except.bind, fullLength,
      otherSearch, otherLength, isLength, divides, ne_eq, not_true_eq_false, if_false]
    split
    · rfl
    · rfl
  refine ⟨fullHashes, otherHashes, _, length, fullMerged, otherMerged, search, greatest, ?_⟩
  have within : length ≤ full * groups.fullAttentionSpec.blockSize :=
    isLength ▸ (Nat.le_div_iff_mul_le otherPositive).mp otherLongest.1.1
  have lengths := lists_cover split (fullLongest.lists.imp fun _ _ => And.left) otherLists isLength
    greatest.1.1 within
  rw [verifyAndSplitKVCacheGroups_groupIds splits] at lengths
  obtain ⟨sameLength, each⟩ := List.forall₂_iff_get.mp lengths
  rw [List.length_range] at sameLength
  refine List.forall₂_iff_get.mpr ⟨sameLength, fun i inside inHits => ?_⟩
  have atI := each i (by rwa [List.length_range]) inHits
  simp only [List.get_eq_getElem, List.getElem_range] at atI ⊢
  exact atI _ (List.getElem?_eq_getElem inside)

/-- Blocks 1 and 2 are cached for full attention and block 3 for Mamba, in blocks of twice the
size. -/
def cachedHybrid : BlockPool Nat :=
  { (BlockPool.init 5 true 2 : BlockPool Nat) with
    cachedBlockHashToBlock := ((BlockHashToBlockMap.empty.insert ⟨[7], 0⟩ 1).insert
      ⟨[8], 0⟩ 2).insert ⟨[7, 8], 1⟩ 3 }

theorem hybridHit_isGreatest_mamba :
    ∃ fullHashes otherHashes,
      cachedHybrid.hybridHit ⟨[0], [1], ⟨.full, 2⟩, ⟨.mamba 0, 4⟩, true⟩ [7, 8] 5 false =
        .ok ([[1, 2], [3]], 4) ∧
      IsGreatest {k | cachedHybrid.HybridHitOf ⟨[0], [1], ⟨.full, 2⟩, ⟨.mamba 0, 4⟩, true⟩
        fullHashes otherHashes 5 k} 4 := by
  have search : cachedHybrid.hybridHit ⟨[0], [1], ⟨.full, 2⟩, ⟨.mamba 0, 4⟩, true⟩ [7, 8] 5 false =
      .ok ([[1, 2], [3]], 4) := by
    decide +kernel
  obtain ⟨fullHashes, otherHashes, hits, length, -, -, found, greatest, -⟩ :=
    hybridHit_isGreatest cachedHybrid [⟨.full, 2⟩, ⟨.mamba 0, 4⟩]
      ⟨[0], [1], ⟨.full, 2⟩, ⟨.mamba 0, 4⟩, true⟩ [7, 8] 5 rfl trivial (by decide) (by decide)
  obtain ⟨-, rfl⟩ : hits = [[1, 2], [3]] ∧ length = 4 := by
    simpa using Except.ok.inj (found.symm.trans search)
  exact ⟨fullHashes, otherHashes, search, greatest⟩

end BlockPool

end Kalypso.Engine
