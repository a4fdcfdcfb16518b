import Kalypso.Engine.BlockHash

/-!
# Equal block hashes and equal content

With a hash function without collisions, two block hashes are equal exactly if the two requests
agree on the tokens and the extra keys of all blocks up to that one.  The extra keys do not say
which of them is a LoRA name, an identifier or a salt, and the block that generated tokens complete
takes in only the last multimodal input, so the content can still differ.
-/

set_option autoImplicit false

namespace Kalypso.Engine

open Kalypso.Lib
open MultiModalFeatureSpec

/-! ## Agreement of hashes -/

namespace RequestHasher

variable {H : Type} [DecidableEq H] {hasher : RequestHasher H}

theorem parentHash_injective {first second : H} (firstHash : first ≠ hasher.noneHash)
    (secondHash : second ≠ hasher.noneHash)
    (same : hasher.parentHash (some first) = hasher.parentHash (some second)) : first = second := by
  simp only [parentHash] at same
  by_cases firstEmpty : first = hasher.emptyBytes
  · by_cases secondEmpty : second = hasher.emptyBytes
    · rw [firstEmpty, secondEmpty]
    · rw [if_pos firstEmpty, if_neg secondEmpty] at same
      exact absurd same.symm secondHash
  · by_cases secondEmpty : second = hasher.emptyBytes
    · rw [if_neg firstEmpty, if_pos secondEmpty] at same
      exact absurd same firstHash
    · rw [if_neg firstEmpty, if_neg secondEmpty] at same
      exact same

theorem chainStep_inj (free : hasher.CollisionFree) {parent parent' : H}
    {input input' : List Nat × Option (List HashKey)} (isHash : parent ≠ hasher.noneHash)
    (isHash' : parent' ≠ hasher.noneHash)
    (same : hasher.chainStep parent input = hasher.chainStep parent' input') :
    parent = parent' ∧ input = input' := by
  have inputs := Prod.mk.inj (free.injective same)
  exact ⟨parentHash_injective isHash isHash' inputs.1, inputs.2⟩

end RequestHasher

/-- Two requests agree on the tokens and the extra keys of the blocks up to `block`. -/
def InputsAgree (blockSize : Nat) (content content' : RequestContent) (tokens tokens' : List Nat)
    (block : Nat) : Prop :=
  ∀ earlier ≤ block, blockTokens blockSize tokens earlier = blockTokens blockSize tokens' earlier ∧
    content.blockKeys blockSize earlier = content'.blockKeys blockSize earlier

/-- The chain of hashes carries exactly the tokens and extra keys of its blocks. -/
theorem RequestHasher.blockHash_inj {H : Type} [DecidableEq H] {hasher : RequestHasher H}
    (free : hasher.CollisionFree) (content content' : RequestContent) (tokens tokens' : List Nat)
    (block : Nat) :
    hasher.blockHash content tokens block = hasher.blockHash content' tokens' block ↔
      InputsAgree hasher.blockSize content content' tokens tokens' block := by
  have makes : ∀ parent input, hasher.chainStep parent input ≠ hasher.noneHash :=
    fun parent input => free.ne_noneHash (hasher.parentHash (some parent), input)
  have atStart : ∀ input input', hasher.chainStep hasher.noneHash input =
      hasher.chainStep hasher.noneHash input' → input = input' := by
    intro input input' same
    exact (Prod.mk.inj (free.injective same)).2
  have chains : hasher.blockHash content tokens block = hasher.blockHash content' tokens' block ↔
      ∀ earlier ≤ block, hasher.blockInput content tokens earlier =
        hasher.blockInput content' tokens' earlier :=
    hashChain_inj (fun hash => hash ≠ hasher.noneHash) makes atStart
      (fun _ _ _ _ isHash isHash' same => chainStep_inj free isHash isHash' same) block
  rw [chains]
  simp only [InputsAgree, blockInput, Prod.mk.injEq]

/-! ## Content -/

def MultiModalFeatureSpec.overlaps (startTokenIdx endTokenIdx : Nat)
    (feature : MultiModalFeatureSpec) : Bool :=
  decide (max feature.mmPosition.offset startTokenIdx < min feature.mmPosition.stop endTokenIdx)

/-- The identifiers of the multimodal inputs that overlap a block, in order. -/
def RequestContent.overlappingIds (content : RequestContent) (blockSize block : Nat) :
    List String :=
  (content.mmFeatures.filter (overlaps (block * blockSize)
    (block * blockSize + blockSize))).map (·.identifier)

structure SameContent (blockSize : Nat) (content content' : RequestContent)
    (tokens tokens' : List Nat) (block : Nat) : Prop where
  tokens : ∀ earlier ≤ block,
    blockTokens blockSize tokens earlier = blockTokens blockSize tokens' earlier
  loraName : content.loraName = content'.loraName
  cacheSalt : content.cacheSalt = content'.cacheSalt
  identifiers : ∀ earlier ≤ block,
    content.overlappingIds blockSize earlier = content'.overlappingIds blockSize earlier

def RequestContent.tokensAfter (content : RequestContent) (calls : List (List Nat)) : List Nat :=
  content.promptTokenIds ++ calls.flatten

variable {content : RequestContent} {blockSize block : Nat}

theorem RequestHasher.Tracks.getElem?_blockHashes {H : Type} [DecidableEq H]
    {hasher : RequestHasher H} {outputs : List Nat} {request : HashedRequest H}
    (tracks : hasher.Tracks content outputs request) {block : Nat}
    (inside : block < request.blockHashes.length) :
    request.blockHashes[block]? =
      some (hasher.blockHash content (content.promptTokenIds ++ outputs) block) := by
  have bound : block < request.allTokenIds.length / hasher.blockSize := by
    simpa [tracks.hashes] using inside
  rw [tracks.hashes, ← tracks.tokens, List.getElem?_map, List.getElem?_range bound]
  rfl

/-! ## Requests whose extra keys tell their content -/

/-- The inputs are disjoint and in order.  If the blocks up to `block` reach the one that the prompt
fills in part, then the last input is the only one in it, and does not end where it starts. -/
structure Orderly (blockSize : Nat) (content : RequestContent) (block : Nat) : Prop where
  nonempty : ∀ feature ∈ content.mmFeatures, 0 < feature.mmPosition.length
  exclusive : content.mmFeatures.Pairwise fun first second =>
    first.mmPosition.stop ≤ second.mmPosition.offset
  lastOnly : 0 < content.numPromptBlocks blockSize → content.numPromptBlocks blockSize ≤ block →
    ∀ feature ∈ content.mmFeatures,
      content.numPromptBlocks blockSize * blockSize < feature.mmPosition.stop →
        content.mmFeatures.getLast? = some feature
  apart : 0 < content.numPromptBlocks blockSize → content.numPromptBlocks blockSize ≤ block →
    ∀ last ∈ content.mmFeatures.getLast?,
      last.mmPosition.stop ≠ content.numPromptBlocks blockSize * blockSize

theorem MultiModalFeatureSpec.overlaps_iff {startTokenIdx endTokenIdx : Nat}
    {feature : MultiModalFeatureSpec} (nonempty : 0 < feature.mmPosition.length)
    (ordered : startTokenIdx < endTokenIdx) :
    feature.overlaps startTokenIdx endTokenIdx = true ↔
      feature.mmPosition.offset < endTokenIdx ∧ startTokenIdx < feature.mmPosition.stop := by
  rw [overlaps, decide_eq_true_iff]
  unfold PlaceholderRange.stop
  omega

section
variable {startTokenIdx endTokenIdx : Nat} (ordered : startTokenIdx < endTokenIdx)
include ordered

section

variable {features : List MultiModalFeatureSpec}
  (nonempty : ∀ feature ∈ features, 0 < feature.mmPosition.length)
  (exclusive : features.Pairwise fun first second =>
    first.mmPosition.stop ≤ second.mmPosition.offset)

include nonempty exclusive

/-- Among inputs that end after the start of the block, the loop reaches those that overlap it. -/
theorem reachedIds_eq_overlapping
    (running : ∀ feature ∈ features, startTokenIdx < feature.mmPosition.stop) :
    reachedIds startTokenIdx endTokenIdx features =
      (features.filter (overlaps startTokenIdx endTokenIdx)).map
        (·.identifier) := by
  induction features with
  | nil => rfl
  | cons feature rest ih =>
    obtain ⟨after, exclusiveRest⟩ := List.pairwise_cons.mp exclusive
    have rest_eq := ih (fun other member => nonempty other (List.mem_cons_of_mem _ member))
      exclusiveRest (fun other member => running other (List.mem_cons_of_mem _ member))
    have runs := running feature List.mem_cons_self
    have overlap := overlaps_iff (nonempty feature List.mem_cons_self) ordered
    by_cases passed : feature.passedBy endTokenIdx = true
    · have before := (passedBy_iff.mp passed).1
      rw [reachedIds_cons_passed rest passed, if_pos runs.le, rest_eq,
        List.filter_cons_of_pos (overlap.mpr ⟨before, runs⟩), List.map_cons]
    · -- The inputs behind this one start after the end of the block.
      have beyond : endTokenIdx ≤ feature.mmPosition.stop := by
        have nonempty_feature := nonempty feature List.mem_cons_self
        rw [passedBy_iff] at passed
        unfold PlaceholderRange.stop at *
        omega
      have none_later : rest.filter
          (overlaps startTokenIdx endTokenIdx) = [] := by
        rw [List.filter_eq_nil_iff]
        intro other member meets
        have starts := ((overlaps_iff
          (nonempty other (List.mem_cons_of_mem _ member)) ordered).mp meets).1
        have follows := after other member
        omega
      rw [reachedIds_cons_stopped rest (Bool.eq_false_iff.mpr passed)]
      by_cases before : feature.mmPosition.offset < endTokenIdx
      · rw [if_pos ⟨before, runs.le⟩, List.filter_cons_of_pos (overlap.mpr ⟨before, runs⟩),
          none_later]
        rfl
      · rw [if_neg (fun both => before both.1),
          List.filter_cons_of_neg (fun meets => before (overlap.mp meets).1), none_later]
        rfl

theorem reachedIds_dropWhile :
    reachedIds startTokenIdx endTokenIdx
        (features.dropWhile (passedBy startTokenIdx)) =
      (features.filter (overlaps startTokenIdx endTokenIdx)).map
        (·.identifier) := by
  induction features with
  | nil => rfl
  | cons feature rest ih =>
    obtain ⟨after, exclusiveRest⟩ := List.pairwise_cons.mp exclusive
    have nonempty_feature := nonempty feature List.mem_cons_self
    have nonemptyRest : ∀ other ∈ rest, 0 < other.mmPosition.length :=
      fun other member => nonempty other (List.mem_cons_of_mem _ member)
    by_cases passed : feature.passedBy startTokenIdx = true
    · have ends := (passedBy_iff.mp passed).2
      have outside : ¬ feature.overlaps startTokenIdx endTokenIdx = true := by
        rw [overlaps_iff nonempty_feature ordered]
        omega
      rw [List.dropWhile_cons_of_pos passed, List.filter_cons_of_neg outside]
      exact ih nonemptyRest exclusiveRest
    · rw [List.dropWhile_cons_of_neg passed]
      have runs : startTokenIdx < feature.mmPosition.stop := by
        rw [passedBy_iff] at passed
        unfold PlaceholderRange.stop at *
        omega
      apply reachedIds_eq_overlapping ordered nonempty exclusive
      intro other member
      rcases List.mem_cons.mp member with here | later
      · rw [here]
        exact runs
      · have follows := after other later
        have nonempty_other := nonempty other member
        unfold PlaceholderRange.stop at *
        omega

end

end

theorem stop_le_of_getLast? {features : List MultiModalFeatureSpec} {last : MultiModalFeatureSpec}
    (exclusive : features.Pairwise fun first second =>
      first.mmPosition.stop ≤ second.mmPosition.offset)
    (found : features.getLast? = some last) :
    ∀ feature ∈ features, feature.mmPosition.stop ≤ last.mmPosition.stop := by
  obtain ⟨before, split⟩ := List.getLast?_eq_some_iff.mp found
  intro feature member
  rw [split] at exclusive member
  rcases List.mem_append.mp member with earlier | here
  · have follows := (List.pairwise_append.mp exclusive).2.2 feature earlier last
      (List.mem_singleton_self last)
    exact follows.trans (Nat.le_add_right _ _)
  · rw [List.mem_singleton.mp here]

open RequestContent

/-- The last input is the only one in the block that the prompt fills in part. -/
theorem Orderly.overlappingIds_partly (orderly : Orderly blockSize content block)
    (positive : 0 < blockSize) {last : MultiModalFeatureSpec}
    (found : content.mmFeatures.getLast? = some last)
    (later : 0 < content.numPromptBlocks blockSize)
    (reached : content.numPromptBlocks blockSize ≤ block)
    (running : content.numPromptBlocks blockSize * blockSize ≤ last.mmPosition.stop) :
    content.overlappingIds blockSize (content.numPromptBlocks blockSize) =
      [last.identifier] := by
  have ordered : content.numPromptBlocks blockSize * blockSize <
      content.numPromptBlocks blockSize * blockSize + blockSize := Nat.lt_add_of_pos_right positive
  have member := List.mem_of_getLast? found
  have starts := (passedBy_iff.mp
    (content.passedBy_of_numPromptBlocks positive rfl member)).1
  have different := orderly.apart later reached last found
  have meets := (overlaps_iff (orderly.nonempty last member) ordered).mpr
    ⟨starts, by omega⟩
  obtain ⟨before, split⟩ := List.getLast?_eq_some_iff.mp found
  have none_earlier : before.filter (overlaps
      (content.numPromptBlocks blockSize * blockSize)
      (content.numPromptBlocks blockSize * blockSize + blockSize)) = [] := by
    rw [List.filter_eq_nil_iff]
    intro feature earlier overlap
    have inFeatures : feature ∈ content.mmFeatures := by simp [split, earlier]
    have ends := ((overlaps_iff (orderly.nonempty feature inFeatures)
      ordered).mp overlap).2
    cases Option.some.inj (found.symm.trans (orderly.lastOnly later reached feature
      inFeatures ends))
    -- An input cannot end before it starts.
    have exclusive := orderly.exclusive
    rw [split] at exclusive
    have follows := (List.pairwise_append.mp exclusive).2.2 last earlier last
      (List.mem_singleton_self last)
    have nonempty := orderly.nonempty last member
    unfold PlaceholderRange.stop at follows
    omega
  unfold overlappingIds
  rw [split, List.filter_append, none_earlier, List.nil_append,
    List.filter_cons_of_pos meets]
  rfl

/-- The hash of a block of an orderly request takes in the identifiers that overlap the block. -/
theorem Orderly.seenIds_eq (orderly : Orderly blockSize content block) (positive : 0 < blockSize)
    {earlier : Nat} (bound : earlier ≤ block) :
    content.seenIds blockSize earlier = content.overlappingIds blockSize earlier := by
  have ordered : earlier * blockSize < earlier * blockSize + blockSize :=
    Nat.lt_add_of_pos_right positive
  unfold seenIds
  cases found : content.mmFeatures.getLast? with
  | none => simp [overlappingIds, List.getLast?_eq_none_iff.mp found]
  | some last =>
    by_cases ended : last.mmPosition.stop < earlier * blockSize
    · have none_here : content.mmFeatures.filter (overlaps
          (earlier * blockSize) (earlier * blockSize + blockSize)) = [] := by
        rw [List.filter_eq_nil_iff]
        intro feature member overlap
        have ends := ((overlaps_iff (orderly.nonempty feature member)
          ordered).mp overlap).2
        have latest := stop_le_of_getLast? orderly.exclusive found feature member
        omega
      simp [overlappingIds, ended, none_here]
    · by_cases partly : 0 < earlier ∧ earlier = content.numPromptBlocks blockSize
      · simp only [if_neg ended, if_pos partly]
        obtain ⟨later, isPartly⟩ := partly
        subst isPartly
        exact (orderly.overlappingIds_partly positive found later bound
          (Nat.not_lt.mp ended)).symm
      · simp only [if_neg ended, if_neg partly]
        exact reachedIds_dropWhile ordered orderly.nonempty orderly.exclusive

/-! ## Telling the extra keys apart -/

inductive KeyKind where
  | lora
  | identifier
  | salt
  deriving DecidableEq, Repr

/-- LoRA names, identifiers and salts are told apart by `kind`, and no salt is empty. -/
structure Separated (kind : String → KeyKind) (content : RequestContent) : Prop where
  lora : ∀ name ∈ content.loraName, kind name = .lora
  identifiers : ∀ feature ∈ content.mmFeatures, kind feature.identifier = .identifier
  salt : ∀ salt ∈ content.cacheSalt, kind salt = .salt ∧ salt ≠ ""

def HashKey.ofKind (kind : String → KeyKind) (wanted : KeyKind) : HashKey → Option String
  | .str value => if kind value = wanted then some value else none
  | .bytes _ => none

variable {kind : String → KeyKind}

theorem filterMap_ofKind {own : KeyKind} (wanted : KeyKind) {values : List String}
    (same : ∀ value ∈ values, kind value = own) :
    (values.map HashKey.str).filterMap (HashKey.ofKind kind wanted) =
      if own = wanted then values else [] := by
  induction values with
  | nil => simp
  | cons value rest ih =>
    have here := same value List.mem_cons_self
    have tail := ih fun other member => same other (List.mem_cons_of_mem _ member)
    by_cases asked : own = wanted
    · simp [HashKey.ofKind, here, asked] at tail ⊢
      exact tail
    · simp [HashKey.ofKind, here, asked] at tail ⊢
      exact tail

theorem RequestContent.getD_extraKeysOf (content : RequestContent)
    (startTokenIdx endTokenIdx : Nat) (ids : List String) :
    (content.extraKeysOf startTokenIdx endTokenIdx ids).getD [] =
      content.genLoraExtraHashKeys ++ ids.map .str ++ content.cacheSaltKeys startTokenIdx ++
        content.genPromptEmbedsExtraHashKeys startTokenIdx endTokenIdx := by
  unfold extraKeysOf
  dsimp only
  split
  next empty => exact (List.isEmpty_iff.mp empty).symm
  next => rfl

theorem RequestContent.filterMap_promptEmbeds (content : RequestContent)
    (startTokenIdx endTokenIdx : Nat) (kind : String → KeyKind) (wanted : KeyKind) :
    (content.genPromptEmbedsExtraHashKeys startTokenIdx endTokenIdx).filterMap
      (HashKey.ofKind kind wanted) = [] := by
  cases given : content.promptEmbeds with
  | none => simp [genPromptEmbedsExtraHashKeys, given]
  | some rows => simp [genPromptEmbedsExtraHashKeys, given, HashKey.ofKind]

def RequestContent.saltsOf (content : RequestContent) (block : Nat) : List String :=
  if block = 0 then content.cacheSalt.toList else []

theorem Separated.cacheSaltKeys_eq (separated : Separated kind content) (positive : 0 < blockSize)
    (block : Nat) :
    content.cacheSaltKeys (block * blockSize) = (content.saltsOf block).map .str := by
  have start : block * blockSize = 0 ↔ block = 0 := by
    rw [Nat.mul_eq_zero]
    omega
  cases given : content.cacheSalt with
  | none => simp [cacheSaltKeys, saltsOf, given]
  | some salt =>
    have named := (separated.salt salt given).2
    by_cases first : block = 0
    · simp [cacheSaltKeys, saltsOf, given, first, named]
    · simp [cacheSaltKeys, saltsOf, given, first, start]

theorem Separated.filterMap_blockKeys (separated : Separated kind content)
    (orderly : Orderly blockSize content block) (positive : 0 < blockSize) {earlier : Nat}
    (bound : earlier ≤ block) (wanted : KeyKind) :
    ((content.blockKeys blockSize earlier).getD []).filterMap (HashKey.ofKind kind wanted) =
      (if .lora = wanted then content.loraName.toList else []) ++
        (if .identifier = wanted then content.overlappingIds blockSize earlier else []) ++
        (if .salt = wanted then content.saltsOf earlier else []) := by
  have loras : ∀ name ∈ content.loraName.toList, kind name = .lora := by
    intro name member
    exact separated.lora name (Option.mem_toList.mp member)
  have identifiers : ∀ id ∈ content.overlappingIds blockSize earlier, kind id = .identifier := by
    intro id member
    obtain ⟨feature, overlapping, named⟩ := List.mem_map.mp member
    rw [← named]
    exact separated.identifiers feature (List.mem_filter.mp overlapping).1
  have salts : ∀ salt ∈ content.saltsOf earlier, kind salt = .salt := by
    intro salt member
    unfold saltsOf at member
    split at member
    next => exact (separated.salt salt (Option.mem_toList.mp member)).1
    next => exact absurd member List.not_mem_nil
  rw [blockKeys, content.getD_extraKeysOf, List.filterMap_append,
    List.filterMap_append,
    List.filterMap_append, content.filterMap_promptEmbeds, List.append_nil,
    separated.cacheSaltKeys_eq positive, orderly.seenIds_eq positive bound,
    genLoraExtraHashKeys, filterMap_ofKind wanted loras,
    filterMap_ofKind wanted identifiers, filterMap_ofKind wanted salts]

/-- Orderly requests whose LoRA names, identifiers and salts are told apart, and that agree on
tokens and extra keys, have the same content. -/
theorem InputsAgree.sameContent {content content' : RequestContent} {tokens tokens' : List Nat}
    (agree : InputsAgree blockSize content content' tokens tokens' block) (positive : 0 < blockSize)
    (separated : Separated kind content) (separated' : Separated kind content')
    (orderly : Orderly blockSize content block) (orderly' : Orderly blockSize content' block) :
    SameContent blockSize content content' tokens tokens' block := by
  have kinds : ∀ earlier ≤ block, ∀ wanted,
      (if KeyKind.lora = wanted then content.loraName.toList else []) ++
        (if .identifier = wanted then content.overlappingIds blockSize earlier else []) ++
        (if .salt = wanted then content.saltsOf earlier else []) =
      (if KeyKind.lora = wanted then content'.loraName.toList else []) ++
        (if .identifier = wanted then content'.overlappingIds blockSize earlier else []) ++
        (if .salt = wanted then content'.saltsOf earlier else []) := by
    intro earlier bound wanted
    rw [← separated.filterMap_blockKeys orderly positive bound,
      ← separated'.filterMap_blockKeys orderly' positive bound, (agree earlier bound).2]
  have first := kinds 0 (Nat.zero_le _)
  refine ⟨fun earlier bound => (agree earlier bound).1, ?_, ?_, ?_⟩
  · have names : content.loraName.toList = content'.loraName.toList := by
      simpa using first .lora
    simpa using congrArg List.head? names
  · have salts : content.cacheSalt.toList = content'.cacheSalt.toList := by
      simpa [saltsOf] using first .salt
    simpa using congrArg List.head? salts
  · intro earlier bound
    simpa using kinds earlier bound .identifier

/-- Any two requests whose LoRA names, identifiers and salts are told apart have their hashes after
any calls, and equal hashes of a block up to which both are orderly mean equal content. -/
theorem equal_hashes_same_content {H : Type} [DecidableEq H] {hasher : RequestHasher H}
    (free : hasher.CollisionFree) (kind : String → KeyKind) (content content' : RequestContent)
    (separated : Separated kind content) (separated' : Separated kind content')
    (calls calls' : List (List Nat)) :
    ∃ request request', hasher.build content calls = some request ∧
      hasher.build content' calls' = some request' ∧
      ∀ block, block < request.blockHashes.length → block < request'.blockHashes.length →
        Orderly hasher.blockSize content block → Orderly hasher.blockSize content' block →
        request.blockHashes[block]? = request'.blockHashes[block]? →
          SameContent hasher.blockSize content content' (content.tokensAfter calls)
            (content'.tokensAfter calls') block := by
  obtain ⟨request, built, tracks⟩ := hasher.build_tracks content calls
  obtain ⟨request', built', tracks'⟩ := hasher.build_tracks content' calls'
  refine ⟨request, request', built, built', ?_⟩
  intro block inside inside' orderly orderly' same
  rw [tracks.getElem?_blockHashes inside, tracks'.getElem?_blockHashes inside',
    Option.some.injEq] at same
  have agree := (RequestHasher.blockHash_inj free _ _ _ _ block).mp same
  exact agree.sameContent hasher.blockSize_pos separated separated' orderly orderly'

/-- A hash function without collisions: the hash of a block is all that went into it. -/
def inputsHasher (blockSize : Nat) (positive : 0 < blockSize) :
    RequestHasher (List (List Nat × Option (List HashKey))) where
  blockSize := blockSize
  blockSize_pos := positive
  noneHash := []
  emptyBytes := []
  hashFunction := fun input => (input.2.1, input.2.2) :: input.1

theorem inputsHasher_collisionFree (blockSize : Nat) (positive : 0 < blockSize) :
    (inputsHasher blockSize positive).CollisionFree := by
  refine ⟨?_, fun _ => List.cons_ne_nil _ _⟩
  intro first second same
  simp only [inputsHasher, List.cons.injEq, Prod.mk.injEq] at same
  exact Prod.ext same.2 (Prod.ext same.1.1 same.1.2)

def twoImages (first second : String) : RequestContent where
  promptTokenIds := [1, 1, 1, 9, 9]
  promptEmbeds := none
  mmFeatures := [⟨first, ⟨3, 1⟩⟩, ⟨second, ⟨4, 1⟩⟩]
  loraName := none
  cacheSalt := none
  inPrompt := by simp [PlaceholderRange.stop]

def textRequest (loraName cacheSalt : Option String) : RequestContent where
  promptTokenIds := [1, 1, 1]
  promptEmbeds := none
  mmFeatures := []
  loraName := loraName
  cacheSalt := cacheSalt
  inPrompt := by simp

/-- Two images, of which the second starts the block that a prompt of five tokens fills in part. -/
def tenantRequest (lastTokens : List Nat) : RequestContent where
  promptTokenIds := [9, 9, 1, 9, 9] ++ lastTokens
  promptEmbeds := none
  mmFeatures := [⟨"map", ⟨0, 2⟩⟩, ⟨"cat", ⟨3, 2⟩⟩]
  loraName := some "sql"
  cacheSalt := some "tenant"
  inPrompt := by simp [PlaceholderRange.stop]

def tenantKind (key : String) : KeyKind :=
  if key = "sql" then .lora else if key = "tenant" then .salt else .identifier

/-- The block with the second image is completed by a generated token or by the prompt. -/
theorem equal_hashes_same_content_tenant :
    ∃ request request',
      (inputsHasher 3 (by decide)).build (tenantRequest []) [[2], [7]] = some request ∧
      (inputsHasher 3 (by decide)).build (tenantRequest [2]) [[8]] = some request' ∧
      request.blockHashes[1]? = request'.blockHashes[1]? ∧ request.blockHashes.length = 2 ∧
      SameContent 3 (tenantRequest []) (tenantRequest [2])
        ((tenantRequest []).tokensAfter [[2], [7]]) ((tenantRequest [2]).tokensAfter [[8]]) 1 := by
  have separated : ∀ lastTokens, Separated tenantKind (tenantRequest lastTokens) := by
    intro lastTokens
    refine ⟨?_, ?_, ?_⟩ <;> simp [tenantRequest, tenantKind]
  have orderly : Orderly 3 (tenantRequest []) 1 :=
    ⟨by decide, by decide, fun _ _ => by decide, fun _ _ => by decide⟩
  have orderly' : Orderly 3 (tenantRequest [2]) 1 :=
    ⟨by decide, by decide, fun _ reached => absurd reached (by decide),
      fun _ reached => absurd reached (by decide)⟩
  obtain ⟨request, request', built, built', means⟩ := equal_hashes_same_content
    (inputsHasher_collisionFree 3 (by decide)) tenantKind _ _ (separated []) (separated [2])
    [[2], [7]] [[8]]
  cases built
  cases built'
  exact ⟨_, _, rfl, rfl, by decide +kernel, by decide +kernel,
    means 1 (by decide +kernel) (by decide +kernel) orderly orderly' (by decide +kernel)⟩

/-- An image at the end of the first block of three, which may reach into the second. -/
def catImage (length : Nat) (inside : length ≤ 2) : RequestContent where
  promptTokenIds := [1, 1, 9, 9]
  promptEmbeds := none
  mmFeatures := [⟨"cat", ⟨2, length⟩⟩]
  loraName := none
  cacheSalt := none
  inPrompt := by simp [PlaceholderRange.stop]; omega

def RequestHasher.Shared {H : Type} [DecidableEq H] (hasher : RequestHasher H)
    (content content' : RequestContent) (calls : List (List Nat)) (blocks : Nat) : Prop :=
  ∃ request request', hasher.build content calls = some request ∧
    hasher.build content' calls = some request' ∧
    request.blockHashes.length = blocks ∧ request.blockHashes = request'.blockHashes

/-- One generated token completes the block of two images, and its hash takes in the second image
only: requests with different first images have the same hashes.  So have a request for a LoRA and
one without whose salt is the name of the LoRA, requests with an empty salt and with none, an image
that ends where the completed block starts and one that reaches into it, and an image of no tokens
and one of one token. -/
theorem images_share_hashes :
    let hasher := inputsHasher 3 (by decide)
    hasher.CollisionFree ∧
    (hasher.Shared (twoImages "cat" "map") (twoImages "dog" "map") [[2]] 2 ∧
      (twoImages "cat" "map").overlappingIds 3 1 = ["cat", "map"] ∧
      (twoImages "dog" "map").overlappingIds 3 1 = ["dog", "map"]) ∧
    hasher.Shared (textRequest (some "sql") none) (textRequest none (some "sql")) [] 1 ∧
    hasher.Shared (textRequest none (some "")) (textRequest none none) [] 1 ∧
    (hasher.Shared (catImage 1 (by decide)) (catImage 2 (by decide)) [[2, 2]] 2 ∧
      (catImage 1 (by decide)).overlappingIds 3 1 = [] ∧
      (catImage 2 (by decide)).overlappingIds 3 1 = ["cat"]) ∧
    (hasher.Shared (catImage 0 (by decide)) (catImage 1 (by decide)) [] 1 ∧
      (catImage 0 (by decide)).overlappingIds 3 0 = [] ∧
      (catImage 1 (by decide)).overlappingIds 3 0 = ["cat"]) := by
  dsimp only
  refine ⟨inputsHasher_collisionFree 3 (by decide), ⟨?_, by decide, by decide⟩, ?_, ?_,
    ⟨?_, by decide, by decide⟩, ?_, by decide, by decide⟩
  all_goals exact ⟨_, _, rfl, rfl, by decide +kernel, by decide +kernel⟩

end Kalypso.Engine
