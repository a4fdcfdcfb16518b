import Mathlib.Order.Bounds.Basic
import Kalypso.Engine.Allocation

/-!
# Longest prefix-cache hits

What a prefix-cache hit of some number of blocks needs depends on the attention type only through
the number of blocks before its end that are read: all of them for full attention, those of the
window for a sliding window, the last one for Mamba.  Each search finds the longest aligned number
of blocks that meets this need.
-/

set_option autoImplicit false

namespace Kalypso.Engine

open Kalypso.Lib

namespace BlockPool

variable {H : Type} {pool : BlockPool H} {hashes : List (List H)} {groupIds : List Nat}
  {blockSize alignment window n : Nat}

def CachedAt (pool : BlockPool H) (hashes : List (List H)) (groupIds : List Nat) (i : Nat) : Prop :=
  ∃ blockHash, hashes[i]? = some blockHash ∧
    ∀ groupId ∈ groupIds, ∃ b, pool.CachedFor blockHash groupId b

def HitOf (pool : BlockPool H) (hashes : List (List H)) (groupIds : List Nat)
    (blockSize alignment window length : Nat) : Prop :=
  alignment ∣ length * blockSize ∧
    ∀ i, length - min length window ≤ i → i < length → pool.CachedAt hashes groupIds i

/-- The list of a group has the cached blocks at the indices from `first` to `last`. -/
def Filled (pool : BlockPool H) (hashes : List (List H)) (first last groupId : Nat)
    (blocks : List Nat) : Prop :=
  ∀ i, first ≤ i → i < last → ∃ blockHash b,
    hashes[i]? = some blockHash ∧ blocks[i]? = some b ∧ pool.CachedFor blockHash groupId b

structure LongestHit (pool : BlockPool H) (hashes : List (List H)) (groupIds : List Nat)
    (blockSize alignment window n length : Nat) (computed : List (List Nat)) : Prop where
  greatest : IsGreatest
    {k | k ≤ n ∧ pool.HitOf hashes groupIds blockSize alignment window k} length
  lists : List.Forall₂ (fun groupId blocks => blocks.length = length ∧
    pool.HitsAt hashes groupId blocks ∧
    pool.Filled hashes (length - min length window) length groupId blocks) groupIds computed

theorem getCachedBlock_eq_none {blockHash : List H}
    (missed : pool.getCachedBlock blockHash groupIds = none) :
    ¬ ∀ groupId ∈ groupIds, ∃ b, pool.CachedFor blockHash groupId b := by
  induction groupIds with
  | nil => cases missed
  | cons groupId groupIds ih =>
    intro all
    obtain ⟨⟨b, first⟩, rest⟩ := List.forall_mem_cons.mp all
    simp only [getCachedBlock, List.mapM_cons, Option.bind_eq_bind, Option.pure_def] at missed
    rw [show pool.cachedBlockHashToBlock.getOneBlock ⟨blockHash, groupId⟩ = some b from first,
      Option.bind_some] at missed
    cases others : pool.getCachedBlock blockHash groupIds with
    | none => exact ih others rest
    | some cached =>
      rw [getCachedBlock] at others
      rw [others] at missed
      cases missed

theorem not_cachedAt {i : Nat} {blockHash : List H} (atI : hashes[i]? = some blockHash)
    (missed : pool.getCachedBlock blockHash groupIds = none) :
    ¬ pool.CachedAt hashes groupIds i := by
  rintro ⟨other, found, all⟩
  obtain rfl : blockHash = other := Option.some.inj (atI.symm.trans found)
  exact getCachedBlock_eq_none missed all

theorem cachedAt_of_found {i : Nat} {blockHash : List H} {cached : List Nat}
    (atI : hashes[i]? = some blockHash)
    (found : pool.getCachedBlock blockHash groupIds = some cached) :
    pool.CachedAt hashes groupIds i := by
  refine ⟨blockHash, atI, fun groupId member => ?_⟩
  obtain ⟨k, inside, rfl⟩ := List.getElem_of_mem member
  obtain ⟨sameLength, each⟩ := List.forall₂_iff_get.mp (getCachedBlock_forall₂ found)
  exact ⟨_, each k inside (sameLength ▸ inside)⟩

theorem dvd_of_not_unaligned {k : Nat}
    (aligned : ¬ (blockSize ≠ alignment ∧ k * blockSize % alignment ≠ 0)) :
    alignment ∣ k * blockSize := by
  by_cases same : blockSize = alignment
  · exact same ▸ Nat.dvd_mul_left blockSize k
  · exact Nat.dvd_of_mod_eq_zero (not_not.mp fun rest => aligned ⟨same, rest⟩)

theorem popUnaligned_of_dvd (bound : Nat) {computed : List (List Nat)}
    (aligned : alignment ∣ (firstGroup computed).length * blockSize) :
    popUnaligned blockSize alignment bound computed = computed := by
  cases bound with
  | zero => rfl
  | succ bound =>
    rw [popUnaligned, if_neg]
    exact fun unaligned => unaligned.2 (Nat.mod_eq_zero_of_dvd aligned)

theorem Filled.take {first last groupId : Nat} {blocks : List Nat}
    (filled : pool.Filled hashes first last groupId blocks) {k : Nat} (inside : last ≤ k) :
    pool.Filled hashes first last groupId (blocks.take k) := by
  intro i after before
  obtain ⟨blockHash, b, atI, isBlock, cached⟩ := filled i after before
  refine ⟨blockHash, b, atI, ?_, cached⟩
  rw [List.getElem?_take_of_lt (by omega)]
  exact isBlock

theorem Filled.set {first last groupId b : Nat} {blocks : List Nat} {blockHash : List H}
    (filled : pool.Filled hashes (first + 1) last groupId blocks)
    (atFirst : hashes[first]? = some blockHash) (cached : pool.CachedFor blockHash groupId b)
    (inside : first < blocks.length) :
    pool.Filled hashes first last groupId (blocks.set first b) := by
  intro i after before
  rcases Nat.eq_or_lt_of_le after with rfl | later
  · exact ⟨blockHash, b, atFirst, List.getElem?_set_self inside, cached⟩
  · obtain ⟨other, c, atI, isBlock, isCached⟩ := filled i later before
    refine ⟨other, c, atI, ?_, isCached⟩
    rw [List.getElem?_set_ne (by omega)]
    exact isBlock

/-! ## Sliding window -/

/-- The state of the search before index `i - 1`: `k` blocks from `i` on are cached, fewer than the
window, and no more than `i + k` blocks are a hit. -/
structure Searching (pool : BlockPool H) (hashes : List (List H)) (groupIds : List Nat)
    (blockSize alignment window n i k : Nat) (computed : List (List Nat)) : Prop where
  lists : List.Forall₂ (fun groupId blocks => blocks.length = n ∧
    pool.HitsAt hashes groupId blocks ∧ pool.Filled hashes i (i + k) groupId blocks) groupIds
    computed
  short : k < window
  within : i + k ≤ n
  aligned : 0 < k → alignment ∣ (i + k) * blockSize
  cached : ∀ j, i ≤ j → j < i + k → pool.CachedAt hashes groupIds j
  longest : ∀ length, i + k < length → length ≤ n →
    ¬ pool.HitOf hashes groupIds blockSize alignment window length

section Step

variable {i k : Nat} {computed : List (List Nat)}

theorem Searching.restart
    (searching : pool.Searching hashes groupIds blockSize alignment window n (i + 1) k computed)
    (longest : ∀ length, i < length → length ≤ i + 1 + k →
      ¬ pool.HitOf hashes groupIds blockSize alignment window length) :
    pool.Searching hashes groupIds blockSize alignment window n i 0 computed where
  lists := searching.lists.imp fun _ _ ⟨sameLength, hits, _⟩ =>
    ⟨sameLength, hits, fun j after before => absurd before (by omega)⟩
  short := Nat.zero_lt_of_lt searching.short
  within := by
    have within := searching.within
    omega
  aligned := fun positive => absurd positive (Nat.lt_irrefl 0)
  cached := fun j after before => absurd before (by omega)
  longest := by
    intro length longer bound
    by_cases inside : length ≤ i + 1 + k
    · exact longest length longer inside
    · exact searching.longest length (by omega) bound

/-- A missing block is read by every hit that ends at most the window after it. -/
theorem Searching.miss
    (searching : pool.Searching hashes groupIds blockSize alignment window n (i + 1) k computed)
    (missing : ¬ pool.CachedAt hashes groupIds i) :
    pool.Searching hashes groupIds blockSize alignment window n i 0 computed := by
  refine searching.restart fun length longer inside hit => missing (hit.2 i ?_ longer)
  have short := searching.short
  omega

theorem Searching.unaligned
    (searching : pool.Searching hashes groupIds blockSize alignment window n (i + 1) 0 computed)
    (unaligned : (i + 1) * blockSize % alignment ≠ 0) :
    pool.Searching hashes groupIds blockSize alignment window n i 0 computed := by
  refine searching.restart fun length longer inside hit => unaligned ?_
  obtain rfl : length = i + 1 := by omega
  exact Nat.mod_eq_zero_of_dvd hit.1

/-- What one more cached block gives, whether or not the window is complete. -/
theorem Searching.found {blockHash : List H} {cached : List Nat}
    (searching : pool.Searching hashes groupIds blockSize alignment window n (i + 1) k computed)
    (atI : hashes[i]? = some blockHash)
    (found : pool.getCachedBlock blockHash groupIds = some cached) :
    List.Forall₂ (fun groupId blocks => blocks.length = n ∧ pool.HitsAt hashes groupId blocks ∧
      pool.Filled hashes i (i + (k + 1)) groupId blocks) groupIds (setEach i computed cached) ∧
    ∀ j, i ≤ j → j < i + (k + 1) → pool.CachedAt hashes groupIds j := by
  have sameEnd : i + 1 + k = i + (k + 1) := by omega
  have within := searching.within
  refine ⟨forall₂_zipWith ?_ searching.lists (getCachedBlock_forall₂ found), ?_⟩
  · rintro groupId blocks b ⟨sameLength, hits, filled⟩ cachedAt
    refine ⟨by rw [List.length_set, sameLength], hits.set atI cachedAt, ?_⟩
    exact (sameEnd ▸ filled).set atI cachedAt (by omega)
  · intro j after before
    rcases Nat.eq_or_lt_of_le after with rfl | later
    · exact cachedAt_of_found atI found
    · exact searching.cached j later (by omega)

end Step

/-- The search returns, and what is left after the trailing blocks are dropped is a longest hit. -/
theorem slidingWindowSearch_longest (i : Nat) :
    ∀ {computed : List (List Nat)} {k : Nat}, i ≤ hashes.length →
      pool.Searching hashes groupIds blockSize alignment window n i k computed →
        ∃ found numContiguous matchFound length,
          pool.slidingWindowSearch hashes groupIds blockSize alignment window i computed k =
            .ok (found, numContiguous, matchFound) ∧
          pool.LongestHit hashes groupIds blockSize alignment window n length
            (if matchFound then found else found.map fun blocks => blocks.take numContiguous) := by
  induction i with
  | zero =>
    intro computed k _ searching
    have within := searching.within
    have cached := searching.cached
    have longest := searching.longest
    have lists := searching.lists
    rw [Nat.zero_add] at within cached longest lists
    refine ⟨computed, k, false, k, rfl, ⟨⟨within, ?_, ?_⟩, ?_⟩, ?_⟩
    · rcases Nat.eq_zero_or_pos k with rfl | positive
      · rw [Nat.zero_mul]
        exact Nat.dvd_zero alignment
      · have aligned := searching.aligned positive
        rwa [Nat.zero_add] at aligned
    · exact fun j _ before => cached j (Nat.zero_le j) before
    · rintro length ⟨bound, hit⟩
      exact Nat.le_of_not_lt fun longer => longest length longer bound hit
    · rw [if_neg Bool.false_ne_true]
      refine List.forall₂_map_right_iff.mpr (lists.imp ?_)
      rintro groupId blocks ⟨sameLength, hits, filled⟩
      refine ⟨by rw [List.length_take, sameLength, Nat.min_eq_left within], hits.take k, ?_⟩
      exact fun j _ before => filled.take (Nat.le_refl k) j (Nat.zero_le j) before
  | succ i ih =>
    intro computed k enough searching
    obtain ⟨blockHash, atI⟩ : ∃ blockHash, hashes[i]? = some blockHash :=
      ⟨_, List.getElem?_eq_getElem (by omega)⟩
    rw [slidingWindowSearch, atI]
    dsimp only
    cases lookup : pool.getCachedBlock blockHash groupIds with
    | none => exact ih (by omega) (searching.miss (not_cachedAt atI lookup))
    | some cached =>
      dsimp only
      split
      · rename_i unaligned
        obtain ⟨rfl, -, rest⟩ := unaligned
        exact ih (by omega) (searching.unaligned rest)
      · rename_i notUnaligned
        obtain ⟨lists, cachedFrom⟩ := searching.found atI lookup
        have within := searching.within
        have short := searching.short
        have sameEnd : i + 1 + k = i + (k + 1) := by omega
        have longest := searching.longest
        rw [sameEnd] at longest
        have aligned : alignment ∣ (i + (k + 1)) * blockSize := by
          rcases Nat.eq_zero_or_pos k with rfl | positive
          · exact dvd_of_not_unaligned fun unaligned => notUnaligned ⟨rfl, unaligned⟩
          · exact sameEnd ▸ searching.aligned positive
        split
        · rename_i complete
          -- the window was not complete before this block
          have isWindow : k + 1 = window := by omega
          refine ⟨_, _, true, i + (k + 1), rfl, ⟨⟨by omega, aligned, ?_⟩, ?_⟩, ?_⟩
          · exact fun j after before => cachedFrom j (by omega) before
          · rintro length ⟨bound, hit⟩
            exact Nat.le_of_not_lt fun longer => longest length longer bound hit
          · rw [if_pos rfl]
            refine List.forall₂_map_right_iff.mpr (lists.imp ?_)
            rintro groupId blocks ⟨sameLength, hits, filled⟩
            refine ⟨by rw [List.length_take, sameLength]; omega, hits.take _, ?_⟩
            exact fun j after before => filled.take (Nat.le_refl _) j (by omega) before
        · rename_i incomplete
          exact ih (by omega)
            ⟨lists, by omega, by omega, fun _ => aligned, cachedFrom, longest⟩

/-- The number of blocks with the tokens of the window before the next token. -/
def windowBlocks (slidingWindow blockSize : Nat) : Nat :=
  (slidingWindow - 1 + (blockSize - 1)) / blockSize

theorem windowBlocks_pos {slidingWindow : Nat} (positive : 0 < blockSize)
    (wide : 2 ≤ slidingWindow) : 0 < windowBlocks slidingWindow blockSize :=
  Nat.div_pos (by omega) positive

theorem cdiv_eq_windowBlocks {slidingWindow : Nat} (positive : 0 < blockSize)
    (wide : 1 ≤ slidingWindow) :
    cdiv ((slidingWindow : Int) - 1) blockSize = (windowBlocks slidingWindow blockSize : Nat) := by
  have lower := Nat.div_mul_le_self (slidingWindow - 1 + (blockSize - 1)) blockSize
  have upper := Nat.lt_div_mul_add (a := slidingWindow - 1 + (blockSize - 1)) positive
  rw [windowBlocks, cdiv]
  generalize (slidingWindow - 1 + (blockSize - 1)) / blockSize = blocks at lower upper
  have isQuotient : -((slidingWindow : Int) - 1) / (blockSize : Int) = -(blocks : Int) := by
    rw [Int.ediv_eq_iff_of_pos (by omega)]
    rw [Int.neg_mul, ← Int.natCast_mul]
    constructor
    · omega
    · omega
  rw [isQuotient, Int.neg_neg]

theorem searching_start (positive : 0 < window) :
    pool.Searching hashes groupIds blockSize alignment window n n 0
      (groupIds.map fun _ => List.replicate n nullBlock) where
  lists := forall₂_replicate (fun _ => ⟨List.length_replicate, hitsAt_replicate_null n,
    fun j after before => absurd before (by omega)⟩) groupIds
  short := positive
  within := Nat.le_refl n
  aligned := fun absent => absurd absent (Nat.lt_irrefl 0)
  cached := fun j after before => absurd before (by omega)
  longest := fun length longer bound => absurd bound (by omega)

theorem LongestHit.dvd_firstGroup {length : Nat} {computed : List (List Nat)}
    (longest : pool.LongestHit hashes groupIds blockSize alignment window n length computed) :
    alignment ∣ (firstGroup computed).length * blockSize := by
  cases longest.lists with
  | nil => exact (Nat.zero_mul blockSize).symm ▸ Nat.dvd_zero alignment
  | cons first _ =>
    have aligned := longest.greatest.1.2.1
    rw [← first.1] at aligned
    exact aligned

theorem slidingWindowHit_longest {slidingWindow maxLength : Nat} (positive : 0 < blockSize)
    (wide : 2 ≤ slidingWindow) (enough : maxLength / blockSize ≤ hashes.length) :
    ∃ length computed,
      pool.slidingWindowHit slidingWindow blockSize hashes maxLength groupIds false alignment =
        .ok computed ∧
      pool.LongestHit hashes groupIds blockSize alignment (windowBlocks slidingWindow blockSize)
        (maxLength / blockSize) length computed := by
  have start : pool.Searching hashes groupIds blockSize alignment
      (windowBlocks slidingWindow blockSize) (maxLength / blockSize) (maxLength / blockSize) 0
      (groupIds.map fun _ => List.replicate (maxLength / blockSize) nullBlock) :=
    searching_start (windowBlocks_pos positive wide)
  obtain ⟨found, numContiguous, matchFound, length, search, longest⟩ :=
    slidingWindowSearch_longest (maxLength / blockSize) enough start
  refine ⟨length, _, ?_, longest⟩
  have aligned := longest.dvd_firstGroup
  simp only [slidingWindowHit, Bool.false_eq_true, if_false, Int.add_zero,
    cdiv_eq_windowBlocks positive (Nat.le_of_succ_le wide), search, bind, Except.bind,
    Bool.false_and]
  cases matchFound with
  | true => rfl
  | false =>
    rw [if_neg Bool.false_ne_true] at aligned
    simp only [Bool.false_eq_true, if_false]
    rw [popUnaligned_of_dvd _ aligned]
    rfl

theorem slidingWindowHit_tooFew {slidingWindow maxLength : Nat}
    (tooFew : hashes.length < maxLength / blockSize) :
    pool.slidingWindowHit slidingWindow blockSize hashes maxLength groupIds false alignment =
      .error .indexOutOfRange := by
  unfold slidingWindowHit
  dsimp only
  generalize maxLength / blockSize = maxNumBlocks at tooFew
  cases maxNumBlocks with
  | zero => exact absurd tooFew (Nat.not_lt_zero _)
  | succ i =>
    have absent : hashes[i]? = none := List.getElem?_eq_none (Nat.le_of_lt_succ tooFew)
    rw [slidingWindowSearch, absent]
    rfl

/-- The hit of a sliding window is the longest one, provided that there is a hash for every block
within the maximum. -/
theorem slidingWindow_findLongest (pool : BlockPool H) (hashes : List (List H))
    (groupIds : List Nat) (slidingWindow blockSize maxLength alignment : Nat)
    (positive : 0 < blockSize) (wide : 2 ≤ slidingWindow) :
    (hashes.length < maxLength / blockSize →
      pool.findLongestCacheHit ⟨.slidingWindow slidingWindow, blockSize⟩ hashes maxLength groupIds
        false alignment 1 = .error .indexOutOfRange) ∧
    (maxLength / blockSize ≤ hashes.length → ∃ length computed,
      pool.findLongestCacheHit ⟨.slidingWindow slidingWindow, blockSize⟩ hashes maxLength groupIds
        false alignment 1 = .ok computed ∧
      IsGreatest {k | k ≤ maxLength / blockSize ∧ alignment ∣ k * blockSize ∧
        ∀ i, k - min k (windowBlocks slidingWindow blockSize) ≤ i → i < k →
          pool.CachedAt hashes groupIds i} length ∧
      List.Forall₂ (fun groupId blocks => blocks.length = length ∧
        pool.HitsAt hashes groupId blocks ∧
        pool.Filled hashes (length - min length (windowBlocks slidingWindow blockSize)) length
          groupId blocks) groupIds computed) := by
  refine ⟨fun tooFew => ?_, fun enough => ?_⟩
  · exact slidingWindowHit_tooFew tooFew
  · obtain ⟨length, computed, search, longest⟩ := slidingWindowHit_longest positive wide enough
    exact ⟨length, computed, search, longest.greatest, longest.lists⟩

def cachedSecond : BlockPool Nat :=
  { (BlockPool.init 4 true 2 : BlockPool Nat) with
    cachedBlockHashToBlock := BlockHashToBlockMap.empty.insert ⟨[8], 0⟩ 2 }

/-- A window of two tokens needs one block of two: the block before it need not be cached. -/
theorem slidingWindow_findLongest_second :
    cachedSecond.findLongestCacheHit ⟨.slidingWindow 2, 2⟩ [[7], [8]] 5 [0] false 2 1 =
      .ok [[nullBlock, 2]] ∧
    IsGreatest {k | k ≤ 5 / 2 ∧ 2 ∣ k * 2 ∧ ∀ i, k - min k (windowBlocks 2 2) ≤ i → i < k →
      cachedSecond.CachedAt [[7], [8]] [0] i} 2 := by
  have search : cachedSecond.findLongestCacheHit ⟨.slidingWindow 2, 2⟩ [[7], [8]] 5 [0] false 2 1 =
      .ok [[nullBlock, 2]] := by rfl
  obtain ⟨length, computed, found, greatest, lists⟩ :=
    (slidingWindow_findLongest cachedSecond [[7], [8]] [0] 2 2 5 2 (by decide) (by decide)).2
      (by decide)
  obtain rfl : [[nullBlock, 2]] = computed := Except.ok.inj (search.symm.trans found)
  cases lists with
  | cons first _ =>
    obtain rfl : 2 = length := first.1
    exact ⟨search, greatest⟩

/-- One hash and a maximum of two blocks. -/
theorem slidingWindow_raises :
    (BlockPool.init 4 true 2 : BlockPool Nat).findLongestCacheHit ⟨.slidingWindow 2, 2⟩ [[7]] 4 [0]
      false 2 1 = .error .indexOutOfRange := rfl

end BlockPool

end Kalypso.Engine
