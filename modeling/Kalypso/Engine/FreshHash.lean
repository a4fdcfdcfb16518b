import Kalypso.Engine.HashContent

/-!
# Hashing on and hashing from scratch

The blocks that generated tokens complete are hashed when they are full, and the search for
multimodal inputs is then resumed at the last input.  A request that is created with the final
tokens as its prompt is hashed in one go, with an index that has come along all inputs.  The two
can differ in one block only, the one that the prompt has filled in part.
-/

set_option autoImplicit false

namespace Kalypso.Engine

open Kalypso.Lib

def RequestContent.withPrompt (content : RequestContent) (tokens : List Nat)
    (longer : content.promptTokenIds.length ≤ tokens.length) : RequestContent where
  promptTokenIds := tokens
  promptEmbeds := content.promptEmbeds
  mmFeatures := content.mmFeatures
  loraName := content.loraName
  cacheSalt := content.cacheSalt
  inPrompt := fun feature member => (content.inPrompt feature member).trans longer

def RequestContent.Sorted (content : RequestContent) : Prop :=
  content.mmFeatures.Pairwise fun first second => first.mmPosition.stop ≤ second.mmPosition.offset

/-- The inputs that a search from the first one has not passed at the end of the last block that
the prompt fills. -/
def RequestContent.pending (content : RequestContent) (blockSize : Nat) :
    List MultiModalFeatureSpec :=
  content.mmFeatures.filter fun feature =>
    !feature.passedBy (content.numPromptBlocks blockSize * blockSize)

/-- All inputs end before the block that the prompt fills in part, or exactly one is left for it. -/
def RequestContent.Resumes (content : RequestContent) (blockSize : Nat) : Prop :=
  (∀ feature ∈ content.mmFeatures,
      feature.mmPosition.stop < content.numPromptBlocks blockSize * blockSize) ∨
    (content.pending blockSize).length = 1

/-! ## The inputs that are left -/

section
variable {features : List MultiModalFeatureSpec} {start : Nat}

theorem dropWhile_passedBy (sorted : features.Pairwise fun first second =>
      first.mmPosition.stop ≤ second.mmPosition.offset) :
    features.dropWhile (MultiModalFeatureSpec.passedBy start) =
      features.filter fun feature => !feature.passedBy start := by
  induction features with
  | nil => rfl
  | cons feature rest ih =>
    obtain ⟨after, sortedRest⟩ := List.pairwise_cons.mp sorted
    by_cases passed : feature.passedBy start = true
    · rw [List.dropWhile_cons_of_pos passed, List.filter_cons_of_neg (by simp [passed])]
      exact ih sortedRest
    · -- what follows an input that is not passed is not passed either
      rw [List.dropWhile_cons_of_neg passed, List.filter_cons_of_pos (by simpa using passed)]
      congr 1
      symm
      rw [List.filter_eq_self]
      intro other member
      have follows := after other member
      rw [MultiModalFeatureSpec.passedBy_iff] at passed
      rw [Bool.not_eq_true', Bool.eq_false_iff, ne_eq, MultiModalFeatureSpec.passedBy_iff]
      unfold PlaceholderRange.stop at *
      omega

theorem le_stop_of_not_passedBy {feature : MultiModalFeatureSpec}
    (left : (!feature.passedBy start) = true) : start ≤ feature.mmPosition.stop := by
  rw [Bool.not_eq_true', Bool.eq_false_iff, ne_eq, MultiModalFeatureSpec.passedBy_iff] at left
  unfold PlaceholderRange.stop at *
  omega

theorem reachedIds_of_passed {stop : Nat}
    (passed : ∀ feature ∈ features, feature.passedBy stop = true)
    (late : ∀ feature ∈ features, start ≤ feature.mmPosition.stop) :
    reachedIds start stop features = features.map (·.identifier) := by
  induction features with
  | nil => rfl
  | cons feature rest ih =>
    rw [reachedIds_cons_passed rest (passed feature List.mem_cons_self),
      if_pos (late feature List.mem_cons_self), List.map_cons,
      ih (fun other member => passed other (List.mem_cons_of_mem _ member))
        (fun other member => late other (List.mem_cons_of_mem _ member))]

theorem map_identifier_eq_singleton_iff {last : MultiModalFeatureSpec}
    {keep : MultiModalFeatureSpec → Bool} (found : features.getLast? = some last) :
    (features.dropWhile keep).map (·.identifier) = [last.identifier] ↔
      (features.dropWhile keep).length = 1 := by
  constructor
  · intro same
    have lengths := congrArg List.length same
    simpa using lengths
  · intro single
    obtain ⟨only, isOnly⟩ := List.length_eq_one_iff.mp single
    have isLast : features.getLast? = some only := by
      rw [← List.takeWhile_append_dropWhile (p := keep) (l := features), isOnly,
        List.getLast?_append]
      rfl
    rw [isOnly, Option.some.inj (found.symm.trans isLast)]
    rfl

end

/-! ## The identifiers of a block in both cases -/

namespace RequestContent

variable {content : RequestContent} {tokens : List Nat} {blockSize block : Nat}
  {longer : content.promptTokenIds.length ≤ tokens.length}

/-- A block of the prompt of the new request is searched from where the search has come to. -/
theorem seenIds_withPrompt (full : block < tokens.length / blockSize)
    {last : MultiModalFeatureSpec} (found : content.mmFeatures.getLast? = some last) :
    (content.withPrompt tokens longer).seenIds blockSize block =
      if last.mmPosition.stop < block * blockSize then []
      else reachedIds (block * blockSize) (block * blockSize + blockSize)
        (content.mmFeatures.dropWhile (MultiModalFeatureSpec.passedBy (block * blockSize))) := by
  have inPrompt : ¬ (0 < block ∧
      block = (content.withPrompt tokens longer).numPromptBlocks blockSize) := by
    rintro ⟨_, partly⟩
    exact absurd (partly ▸ full) (lt_irrefl _)
  have found' : (content.withPrompt tokens longer).mmFeatures.getLast? = some last := found
  unfold seenIds
  rw [found']
  dsimp only
  rw [if_neg inPrompt]
  rfl

/-- The two searches find the same identifiers, except perhaps in the block that the prompt fills
in part. -/
theorem seenIds_eq_iff (positive : 0 < blockSize) (sorted : content.Sorted)
    (full : block < tokens.length / blockSize) :
    content.seenIds blockSize block =
        (content.withPrompt tokens longer).seenIds blockSize block ↔
      (0 < block ∧ block = content.numPromptBlocks blockSize → content.Resumes blockSize) := by
  cases found : content.mmFeatures.getLast? with
  | none =>
    have noInputs := List.getLast?_eq_none_iff.mp found
    have noInputs' : (content.withPrompt tokens longer).mmFeatures.getLast? = none := found
    refine iff_of_true ?_ ?_
    · unfold seenIds
      rw [found, noInputs']
    · intro _
      left
      intro feature member
      rw [noInputs] at member
      cases member
  | some last =>
    rw [seenIds_withPrompt full found]
    unfold seenIds
    rw [found]
    dsimp only
    by_cases ended : last.mmPosition.stop < block * blockSize
    · rw [if_pos ended, if_pos ended]
      refine iff_of_true rfl ?_
      rintro ⟨_, rfl⟩
      left
      intro feature member
      exact (stop_le_of_getLast? sorted found feature member).trans_lt ended
    · rw [if_neg ended, if_neg ended]
      by_cases partly : 0 < block ∧ block = content.numPromptBlocks blockSize
      · have here := partly
        obtain ⟨_, rfl⟩ := here
        have runs : ¬ ∀ feature ∈ content.mmFeatures,
            feature.mmPosition.stop < content.numPromptBlocks blockSize * blockSize :=
          fun all => ended (all last (List.mem_of_getLast? found))
        have reached : reachedIds (content.numPromptBlocks blockSize * blockSize)
            (content.numPromptBlocks blockSize * blockSize + blockSize)
            (content.pending blockSize) = (content.pending blockSize).map (·.identifier) := by
          apply reachedIds_of_passed
          · intro feature member
            exact content.passedBy_of_numPromptBlocks positive rfl (List.mem_filter.mp member).1
          · intro feature member
            exact le_stop_of_not_passedBy (List.mem_filter.mp member).2
        have left : content.mmFeatures.dropWhile (MultiModalFeatureSpec.passedBy
            (content.numPromptBlocks blockSize * blockSize)) = content.pending blockSize :=
          dropWhile_passedBy sorted
        rw [if_pos partly, forall_prop_of_true partly, Resumes, or_iff_right runs, left, reached,
          ← left, eq_comm]
        exact map_identifier_eq_singleton_iff found
      · rw [if_neg partly]
        exact iff_of_true rfl fun isPartly => absurd isPartly partly

/-- The tuple of extra keys tells the identifiers, the other keys being the same. -/
theorem extraKeysOf_inj {startTokenIdx endTokenIdx : Nat} {ids ids' : List String} :
    content.extraKeysOf startTokenIdx endTokenIdx ids =
        content.extraKeysOf startTokenIdx endTokenIdx ids' ↔ ids = ids' := by
  refine ⟨?_, congrArg _⟩
  intro same
  have keys := congrArg (Option.getD · []) same
  rw [getD_extraKeysOf, getD_extraKeysOf, List.append_cancel_right_eq,
    List.append_cancel_right_eq, List.append_cancel_left_eq] at keys
  exact (List.map_inj_right fun _ _ equal => HashKey.str.inj equal).mp keys

theorem blockKeys_eq_iff :
    content.blockKeys blockSize block =
      (content.withPrompt tokens longer).blockKeys blockSize block ↔
      content.seenIds blockSize block =
        (content.withPrompt tokens longer).seenIds blockSize block :=
  extraKeysOf_inj

end RequestContent

/-! ## The hashes in both cases -/

theorem RequestContent.length_tokensAfter (content : RequestContent) (calls : List (List Nat)) :
    content.promptTokenIds.length ≤ (content.tokensAfter calls).length := by
  unfold RequestContent.tokensAfter
  simp

def RequestContent.fresh (content : RequestContent) (calls : List (List Nat)) : RequestContent :=
  content.withPrompt (content.tokensAfter calls) (content.length_tokensAfter calls)

/-- Generated tokens complete no block that the prompt has begun behind full ones, or the search
for inputs is resumed at the right place. -/
def RequestContent.HashesAsFresh (content : RequestContent) (blockSize : Nat)
    (calls : List (List Nat)) : Prop :=
  (content.tokensAfter calls).length / blockSize ≤ content.numPromptBlocks blockSize ∨
    content.numPromptBlocks blockSize = 0 ∨ content.Resumes blockSize

section
variable {H : Type} [DecidableEq H] {hasher : RequestHasher H} {content : RequestContent}
  {calls : List (List Nat)}

omit [DecidableEq H] in
theorem blockKeys_fresh (sorted : content.Sorted)
    (asFresh : content.HashesAsFresh hasher.blockSize calls) {block : Nat}
    (full : block < (content.tokensAfter calls).length / hasher.blockSize) :
    content.blockKeys hasher.blockSize block =
      (content.fresh calls).blockKeys hasher.blockSize block := by
  apply RequestContent.blockKeys_eq_iff.mpr
  apply (RequestContent.seenIds_eq_iff hasher.blockSize_pos sorted full).mpr
  rintro ⟨later, partly⟩
  rcases asFresh with noneCompleted | noFull | resumes
  · omega
  · omega
  · exact resumes

theorem blockHash_fresh (sorted : content.Sorted)
    (asFresh : content.HashesAsFresh hasher.blockSize calls) {block : Nat}
    (full : block < (content.tokensAfter calls).length / hasher.blockSize) :
    hasher.blockHash content (content.tokensAfter calls) block =
      hasher.blockHash (content.fresh calls) (content.tokensAfter calls) block := by
  apply hashChain_congr
  intro earlier bound
  unfold RequestHasher.blockInput
  rw [blockKeys_fresh sorted asFresh (bound.trans_lt full)]

/-- For every request with sorted inputs and every sequence of calls, the block hashes are those of
a new request with the final tokens as its prompt if the condition holds, and only then if the hash
function has no collisions. -/
theorem blockHashes_fresh_iff (hasher : RequestHasher H) (content : RequestContent)
    (sorted : content.Sorted) (calls : List (List Nat)) :
    ∃ request scratch, hasher.build content calls = some request ∧
      hasher.init (content.fresh calls) = some scratch ∧
      scratch.allTokenIds = request.allTokenIds ∧
      (content.HashesAsFresh hasher.blockSize calls →
        request.blockHashes = scratch.blockHashes) ∧
      (hasher.CollisionFree → request.blockHashes = scratch.blockHashes →
        content.HashesAsFresh hasher.blockSize calls) := by
  obtain ⟨request, built, tracks⟩ := hasher.build_tracks content calls
  obtain ⟨scratch, created, tracks'⟩ := hasher.init_tracks (content.fresh calls)
  have tokens : request.allTokenIds = content.tokensAfter calls := tracks.tokens
  have tokens' : scratch.allTokenIds = content.tokensAfter calls :=
    tracks'.tokens.trans (List.append_nil _)
  have hashes := tracks.hashes
  have hashes' := tracks'.hashes
  rw [tokens] at hashes
  rw [tokens'] at hashes'
  refine ⟨request, scratch, built, created, tokens'.trans tokens.symm, ?_, ?_⟩
  · intro asFresh
    rw [hashes, hashes']
    apply List.map_congr_left
    intro block member
    exact blockHash_fresh sorted asFresh (List.mem_range.mp member)
  · intro free same
    by_contra differs
    unfold RequestContent.HashesAsFresh at differs
    simp only [not_or, not_le] at differs
    obtain ⟨completed, someFull, resumesNot⟩ := differs
    -- the block that the prompt fills in part has a hash in both requests
    have hashed := congrArg (·[content.numPromptBlocks hasher.blockSize]?) same
    simp only [hashes, hashes', List.getElem?_map, List.getElem?_range completed, Option.map_some,
      Option.some.injEq] at hashed
    have agree := (RequestHasher.blockHash_inj free content (content.fresh calls) _ _ _).mp hashed
    have keys := RequestContent.blockKeys_eq_iff.mp (agree _ (le_refl _)).2
    have resumes := (RequestContent.seenIds_eq_iff hasher.blockSize_pos sorted completed).mp keys
    exact resumesNot (resumes ⟨Nat.pos_of_ne_zero someFull, rfl⟩)

end

def oneImage : RequestContent where
  promptTokenIds := [1, 1, 1, 9]
  promptEmbeds := none
  mmFeatures := [⟨"cat", ⟨3, 1⟩⟩]
  loraName := none
  cacheSalt := none
  inPrompt := by simp [PlaceholderRange.stop]

theorem blockHashes_fresh_iff_oneImage :
    ∃ request scratch, (inputsHasher 3 (by decide)).build oneImage [[2], [2]] = some request ∧
      (inputsHasher 3 (by decide)).init (oneImage.fresh [[2], [2]]) = some scratch ∧
      request.blockHashes = scratch.blockHashes := by
  have sorted : oneImage.Sorted := List.pairwise_singleton _ _
  obtain ⟨request, scratch, built, created, -, equal, -⟩ :=
    blockHashes_fresh_iff (inputsHasher 3 (by decide)) oneImage sorted [[2], [2]]
  refine ⟨request, scratch, built, created, equal ?_⟩
  right
  right
  right
  rfl

/-- An image that ends exactly where the last full block of the prompt ends. -/
def imageInFront : RequestContent where
  promptTokenIds := [1, 1, 9]
  promptEmbeds := none
  mmFeatures := [⟨"cat", ⟨2, 1⟩⟩]
  loraName := none
  cacheSalt := none
  inPrompt := by simp [PlaceholderRange.stop]

/-- Two images in the partly filled block, of which the first is overlooked; and an image that
ends where that block begins, which is taken in again. -/
theorem blockHashes_differ_from_fresh :
    ((twoImages "cat" "map").Sorted ∧ ∃ request scratch,
      (inputsHasher 3 (by decide)).build (twoImages "cat" "map") [[2]] = some request ∧
      (inputsHasher 3 (by decide)).init ((twoImages "cat" "map").fresh [[2]]) = some scratch ∧
      request.blockHashes ≠ scratch.blockHashes) ∧
    (imageInFront.Sorted ∧ ∃ request scratch,
      (inputsHasher 3 (by decide)).build imageInFront [[2, 2, 2]] = some request ∧
      (inputsHasher 3 (by decide)).init (imageInFront.fresh [[2, 2, 2]]) = some scratch ∧
      request.blockHashes ≠ scratch.blockHashes) := by
  refine ⟨⟨?_, _, _, rfl, rfl, by decide +kernel⟩, ⟨?_, _, _, rfl, rfl, by decide +kernel⟩⟩
  · simp [RequestContent.Sorted, twoImages, PlaceholderRange.stop]
  · exact List.pairwise_singleton _ _

end Kalypso.Engine
