import Mathlib.Data.List.TakeWhile
import Kalypso.Lib.HashChain

/-!
# What a block hash says about a request

`get_request_block_hasher` hashes every full block of a request once, from the hash of the block
before it, the tokens of the block and its extra keys: the LoRA name, the identifiers of multimodal
inputs, the cache salt and the prompt embeddings, in one flat tuple.  The blocks of the prompt are
hashed when the request is constructed, with an index that runs along the multimodal inputs; the
blocks that generated tokens complete are hashed later, starting from the last multimodal input.
-/

set_option autoImplicit false

namespace Kalypso.Engine

open Kalypso.Lib

/-! ## Requests -/

structure PlaceholderRange where
  offset : Nat
  length : Nat
  deriving DecidableEq, Repr

def PlaceholderRange.stop (range : PlaceholderRange) : Nat := range.offset + range.length

structure MultiModalFeatureSpec where
  identifier : String
  mmPosition : PlaceholderRange
  deriving DecidableEq, Repr

/-- The arguments of `Request.__init__` that the block hashes depend on.  For prompt embeddings
the token ids are zeros, and a row of the tensor is given by its bytes.  A placeholder is a range
of the prompt; the ranges may overlap. -/
structure RequestContent where
  promptTokenIds : List Nat
  promptEmbeds : Option (List (List UInt8))
  mmFeatures : List MultiModalFeatureSpec
  loraName : Option String
  cacheSalt : Option String
  inPrompt : ∀ feature ∈ mmFeatures, feature.mmPosition.stop ≤ promptTokenIds.length

inductive HashKey where
  | str (value : String)
  | bytes (value : List UInt8)
  deriving DecidableEq, Repr

/-- The block size, `NONE_HASH`, the empty byte string and the hash function. -/
structure RequestHasher (H : Type) where
  blockSize : Nat
  blockSize_pos : 0 < blockSize
  noneHash : H
  emptyBytes : H
  hashFunction : H × List Nat × Option (List HashKey) → H

structure RequestHasher.CollisionFree {H : Type} (hasher : RequestHasher H) : Prop where
  injective : Function.Injective hasher.hashFunction
  ne_noneHash : ∀ input, hasher.hashFunction input ≠ hasher.noneHash

structure HashedRequest (H : Type) where
  content : RequestContent
  allTokenIds : List Nat
  blockHashes : List H

/-! ## Extra keys -/

/-- The loop of `_gen_mm_extra_hash_keys` over the inputs from index `currMmIdx` on. -/
def mmKeysFrom (startTokenIdx endTokenIdx : Nat) :
    List MultiModalFeatureSpec → Nat → List String × Nat
  | [], currMmIdx => ([], currMmIdx)
  | feature :: rest, currMmIdx =>
      if feature.mmPosition.offset < endTokenIdx then
        if feature.mmPosition.stop < startTokenIdx then
          mmKeysFrom startTokenIdx endTokenIdx rest (currMmIdx + 1)
        else if feature.mmPosition.stop ≤ endTokenIdx then
          let (keys, nextMmIdx) := mmKeysFrom startTokenIdx endTokenIdx rest (currMmIdx + 1)
          (feature.identifier :: keys, nextMmIdx)
        else ([feature.identifier], currMmIdx)
      else ([], currMmIdx)

/-- `_gen_mm_extra_hash_keys`; nothing for a failed assertion.  A negative index counts from the
end. -/
def genMmExtraHashKeys (features : List MultiModalFeatureSpec) (startTokenIdx endTokenIdx : Nat)
    (startMmIdx : Int) : Option (List String × Int) :=
  match features.getLast? with
  | none => some ([], startMmIdx)
  | some last =>
      if last.mmPosition.stop < startTokenIdx then some ([], startMmIdx)
      else if startMmIdx < 0 ∧ (features.length : Int) < -startMmIdx then none
      else
        let currMmIdx :=
          (if startMmIdx < 0 then (features.length : Int) + startMmIdx else startMmIdx).toNat
        let (keys, nextMmIdx) :=
          mmKeysFrom startTokenIdx endTokenIdx (features.drop currMmIdx) currMmIdx
        some (keys, nextMmIdx)

namespace RequestContent

def genLoraExtraHashKeys (content : RequestContent) : List HashKey :=
  content.loraName.toList.map .str

def cacheSaltKeys (content : RequestContent) (startTokenIdx : Nat) : List HashKey :=
  match content.cacheSalt with
  | none => []
  | some salt => if startTokenIdx = 0 ∧ salt ≠ "" then [.str salt] else []

def genPromptEmbedsExtraHashKeys (content : RequestContent) (startTokenIdx endTokenIdx : Nat) :
    List HashKey :=
  match content.promptEmbeds with
  | none => []
  | some rows => [.bytes ((rows.take endTokenIdx).drop startTokenIdx).flatten]

/-- The tuple of extra keys, or `None` if there are none. -/
def extraKeysOf (content : RequestContent) (startTokenIdx endTokenIdx : Nat)
    (mmExtraKeys : List String) : Option (List HashKey) :=
  let extraKeys := content.genLoraExtraHashKeys ++ mmExtraKeys.map .str ++
    content.cacheSaltKeys startTokenIdx ++
    content.genPromptEmbedsExtraHashKeys startTokenIdx endTokenIdx
  if extraKeys.isEmpty then none else some extraKeys

def generateBlockHashExtraKeys (content : RequestContent) (startTokenIdx endTokenIdx : Nat)
    (startMmIdx : Int) : Option (Option (List HashKey) × Int) := do
  let (mmExtraKeys, newStartMmIdx) ←
    genMmExtraHashKeys content.mmFeatures startTokenIdx endTokenIdx startMmIdx
  return (content.extraKeysOf startTokenIdx endTokenIdx mmExtraKeys, newStartMmIdx)

end RequestContent

/-! ## Block hashes -/

namespace RequestHasher

variable {H : Type} [DecidableEq H]

/-- The parent that `hash_block_tokens` uses: `NONE_HASH` for none and for an empty hash. -/
def parentHash (hasher : RequestHasher H) : Option H → H
  | none => hasher.noneHash
  | some parent => if parent = hasher.emptyBytes then hasher.noneHash else parent

def hashBlockTokens (hasher : RequestHasher H) (parentBlockHash : Option H)
    (currBlockTokenIds : List Nat) (extraKeys : Option (List HashKey)) : H :=
  hasher.hashFunction (hasher.parentHash parentBlockHash, currBlockTokenIds, extraKeys)

def hashFullBlocks (hasher : RequestHasher H) (content : RequestContent) (tokens : List Nat) :
    Nat → Nat → Int → Option H → Option (List H)
  | 0, _, _, _ => some []
  | n + 1, startTokenIdx, currMmIdx, prevBlockHash => do
      let (extraKeys, currMmIdx) ← content.generateBlockHashExtraKeys startTokenIdx
        (startTokenIdx + hasher.blockSize) currMmIdx
      let blockHash := hasher.hashBlockTokens prevBlockHash
        ((tokens.drop startTokenIdx).take hasher.blockSize) extraKeys
      let rest ← hasher.hashFullBlocks content tokens n (startTokenIdx + hasher.blockSize)
        currMmIdx (some blockHash)
      return blockHash :: rest

def requestBlockHasher (hasher : RequestHasher H) (request : HashedRequest H) : Option (List H) :=
  let startTokenIdx := request.blockHashes.length * hasher.blockSize
  let numTokens := request.allTokenIds.length
  if numTokens < startTokenIdx + hasher.blockSize then some []
  else
    hasher.hashFullBlocks request.content request.allTokenIds
      ((numTokens - startTokenIdx) / hasher.blockSize) startTokenIdx
      (if 0 < startTokenIdx then -1 else 0) request.blockHashes.getLast?

def init (hasher : RequestHasher H) (content : RequestContent) : Option (HashedRequest H) := do
  let request : HashedRequest H := ⟨content, content.promptTokenIds, []⟩
  let blockHashes ← hasher.requestBlockHasher request
  return { request with blockHashes := blockHashes }

def appendOutputTokenIds (hasher : RequestHasher H) (request : HashedRequest H)
    (tokenIds : List Nat) : Option (HashedRequest H) := do
  let request := { request with allTokenIds := request.allTokenIds ++ tokenIds }
  let blockHashes ← hasher.requestBlockHasher request
  return { request with blockHashes := request.blockHashes ++ blockHashes }

/-- A new request and a sequence of calls of `append_output_token_ids`. -/
def build (hasher : RequestHasher H) (content : RequestContent) (calls : List (List Nat)) :
    Option (HashedRequest H) := do
  let request ← hasher.init content
  calls.foldlM hasher.appendOutputTokenIds request

end RequestHasher

/-! ## The identifiers a block hash takes in -/

/-- Whether the loop leaves a range behind in a block that ends at `endTokenIdx`. -/
def PlaceholderRange.passedBy (endTokenIdx : Nat) (range : PlaceholderRange) : Bool :=
  decide (range.offset < endTokenIdx) && decide (range.stop ≤ endTokenIdx)

def MultiModalFeatureSpec.passedBy (endTokenIdx : Nat) (feature : MultiModalFeatureSpec) : Bool :=
  feature.mmPosition.passedBy endTokenIdx

open MultiModalFeatureSpec

/-- The inputs up to the first that does not end in the block, and that one if it starts before
the end of the block. -/
def reachedBy (endTokenIdx : Nat) (features : List MultiModalFeatureSpec) :
    List MultiModalFeatureSpec :=
  features.takeWhile (passedBy endTokenIdx) ++
    ((features.dropWhile (passedBy endTokenIdx)).head?.filter
      (·.mmPosition.offset < endTokenIdx)).toList

def reachedIds (startTokenIdx endTokenIdx : Nat) (features : List MultiModalFeatureSpec) :
    List String :=
  ((reachedBy endTokenIdx features).filter (startTokenIdx ≤ ·.mmPosition.stop)).map (·.identifier)

variable {feature : MultiModalFeatureSpec} {startTokenIdx endTokenIdx : Nat}

theorem MultiModalFeatureSpec.passedBy_iff {endTokenIdx : Nat} :
    feature.passedBy endTokenIdx = true ↔
      feature.mmPosition.offset < endTokenIdx ∧ feature.mmPosition.stop ≤ endTokenIdx := by
  simp [passedBy, PlaceholderRange.passedBy]

theorem reachedIds_nil (startTokenIdx endTokenIdx : Nat) :
    reachedIds startTokenIdx endTokenIdx [] = [] := rfl

theorem reachedIds_cons_passed (rest : List MultiModalFeatureSpec)
    (passed : feature.passedBy endTokenIdx = true) :
    reachedIds startTokenIdx endTokenIdx (feature :: rest) =
      if startTokenIdx ≤ feature.mmPosition.stop then
        feature.identifier :: reachedIds startTokenIdx endTokenIdx rest
      else reachedIds startTokenIdx endTokenIdx rest := by
  by_cases late : startTokenIdx ≤ feature.mmPosition.stop
  · simp [reachedIds, reachedBy, passed, late]
  · simp [reachedIds, reachedBy, passed, late]

theorem reachedIds_cons_stopped (rest : List MultiModalFeatureSpec)
    (stopped : feature.passedBy endTokenIdx = false) :
    reachedIds startTokenIdx endTokenIdx (feature :: rest) =
      if feature.mmPosition.offset < endTokenIdx ∧ startTokenIdx ≤ feature.mmPosition.stop then
        [feature.identifier]
      else [] := by
  by_cases before : feature.mmPosition.offset < endTokenIdx
  · by_cases late : startTokenIdx ≤ feature.mmPosition.stop
    · simp [reachedIds, reachedBy, stopped, before, late, Option.filter_some]
    · simp [reachedIds, reachedBy, stopped, before, late, Option.filter_some]
  · simp [reachedIds, reachedBy, stopped, before, Option.filter_some]

theorem mmKeysFrom_eq (ordered : startTokenIdx ≤ endTokenIdx)
    (features : List MultiModalFeatureSpec) (currMmIdx : Nat) :
    mmKeysFrom startTokenIdx endTokenIdx features currMmIdx =
      (reachedIds startTokenIdx endTokenIdx features,
        currMmIdx + (features.takeWhile (passedBy endTokenIdx)).length) := by
  induction features generalizing currMmIdx with
  | nil => rfl
  | cons feature rest ih =>
    simp only [mmKeysFrom]
    by_cases before : feature.mmPosition.offset < endTokenIdx
    · by_cases ends : feature.mmPosition.stop ≤ endTokenIdx
      · have passed : feature.passedBy endTokenIdx = true :=
          passedBy_iff.mpr ⟨before, ends⟩
        rw [reachedIds_cons_passed rest passed, List.takeWhile_cons_of_pos passed,
          List.length_cons, ih, Nat.add_right_comm, Nat.add_assoc currMmIdx]
        by_cases late : startTokenIdx ≤ feature.mmPosition.stop
        · simp [before, ends, late, Nat.not_lt.mpr late]
        · simp [before, late, Nat.lt_of_not_le late]
      · have stopped : feature.passedBy endTokenIdx = false := by
          simp [passedBy, PlaceholderRange.passedBy, ends]
        have late : startTokenIdx ≤ feature.mmPosition.stop := by omega
        rw [reachedIds_cons_stopped rest stopped]
        simp [before, ends, late, Nat.not_lt.mpr late, stopped]
    · have stopped : feature.passedBy endTokenIdx = false := by
        simp [passedBy, PlaceholderRange.passedBy, before]
      rw [reachedIds_cons_stopped rest stopped]
      simp [before, stopped]

theorem MultiModalFeatureSpec.passedBy_mono {first second : Nat} (ordered : first ≤ second)
    (passed : feature.passedBy first = true) : feature.passedBy second = true := by
  rw [passedBy_iff] at passed ⊢
  omega

/-- The loop of a later block goes on where the loop of the earlier block stopped. -/
theorem length_takeWhile_passedBy {first second : Nat} (ordered : first ≤ second)
    (features : List MultiModalFeatureSpec) :
    (features.takeWhile (passedBy first)).length +
        ((features.dropWhile (passedBy first)).takeWhile
          (passedBy second)).length =
      (features.takeWhile (passedBy second)).length := by
  induction features with
  | nil => rfl
  | cons feature rest ih =>
    by_cases passed : feature.passedBy first = true
    · have later := passedBy_mono ordered passed
      rw [List.takeWhile_cons_of_pos passed, List.dropWhile_cons_of_pos passed,
        List.takeWhile_cons_of_pos later, List.length_cons, List.length_cons, ← ih]
      omega
    · rw [List.takeWhile_cons_of_neg passed, List.dropWhile_cons_of_neg passed,
        List.length_nil, Nat.zero_add]

theorem drop_length_takeWhile {α : Type} (keep : α → Bool) (items : List α) :
    items.drop (items.takeWhile keep).length = items.dropWhile keep := by
  induction items with
  | nil => rfl
  | cons item rest ih =>
    by_cases kept : keep item = true
    · simp [kept, ih]
    · simp [kept]

section
variable {features : List MultiModalFeatureSpec} {last : MultiModalFeatureSpec}
variable {startTokenIdx endTokenIdx : Nat} (found : features.getLast? = some last)
include found

theorem genMmExtraHashKeys_ended (ended : last.mmPosition.stop < startTokenIdx) (currMmIdx : Int) :
    genMmExtraHashKeys features startTokenIdx endTokenIdx currMmIdx = some ([], currMmIdx) := by
  simp [genMmExtraHashKeys, found, ended]

variable (ordered : startTokenIdx ≤ endTokenIdx)
variable (running : startTokenIdx ≤ last.mmPosition.stop)
include ordered running

theorem genMmExtraHashKeys_natCast (currMmIdx : Nat) :
    genMmExtraHashKeys features startTokenIdx endTokenIdx currMmIdx =
      some (reachedIds startTokenIdx endTokenIdx (features.drop currMmIdx),
        ((currMmIdx + ((features.drop currMmIdx).takeWhile
          (passedBy endTokenIdx)).length : Nat) : Int)) := by
  have nonneg : ¬ (currMmIdx : Int) < 0 := by omega
  simp [genMmExtraHashKeys, found, Nat.not_lt.mpr running, nonneg, mmKeysFrom_eq ordered]

theorem genMmExtraHashKeys_neg_one :
    ∃ nextMmIdx, genMmExtraHashKeys features startTokenIdx endTokenIdx (-1) =
      some (reachedIds startTokenIdx endTokenIdx [last], nextMmIdx) := by
  obtain ⟨before, split⟩ := List.getLast?_eq_some_iff.mp found
  have count : features.length = before.length + 1 := by simp [split]
  have index : ((features.length : Int) + -1).toNat = before.length := by omega
  have bound : ¬ (features.length : Int) < 1 := by omega
  have lastOnly : features.drop before.length = [last] := by simp [split]
  simp [genMmExtraHashKeys, found, Nat.not_lt.mpr running, index, bound, lastOnly,
    mmKeysFrom_eq ordered]

end

namespace RequestContent

def numPromptBlocks (content : RequestContent) (blockSize : Nat) : Nat :=
  content.promptTokenIds.length / blockSize

/-- The identifiers that enter the hash of a block.  The block that the prompt fills only in part
is hashed when generated tokens complete it, and then the last input alone is looked at. -/
def seenIds (content : RequestContent) (blockSize block : Nat) : List String :=
  match content.mmFeatures.getLast? with
  | none => []
  | some last =>
      if last.mmPosition.stop < block * blockSize then []
      else if 0 < block ∧ block = content.numPromptBlocks blockSize then [last.identifier]
      else
        reachedIds (block * blockSize) (block * blockSize + blockSize)
          (content.mmFeatures.dropWhile (passedBy (block * blockSize)))

/-- The index into the inputs that the hasher holds when it comes to a block, as long as the last
input has not ended. -/
def Indexed (content : RequestContent) (blockSize block : Nat) (currMmIdx : Int) : Prop :=
  ∀ last ∈ content.mmFeatures.getLast?, block * blockSize ≤ last.mmPosition.stop →
    currMmIdx =
      if 0 < block ∧ block = content.numPromptBlocks blockSize then -1
      else ((content.mmFeatures.takeWhile
        (passedBy (block * blockSize))).length : Int)

variable {blockSize block : Nat}

section

variable (content : RequestContent) (positive : 0 < blockSize)

include content positive

theorem stop_lt_of_numPromptBlocks_lt (later : content.numPromptBlocks blockSize < block)
    {feature : MultiModalFeatureSpec} (member : feature ∈ content.mmFeatures) :
    feature.mmPosition.stop < block * blockSize := by
  have inside := content.inPrompt feature member
  have outside : content.promptTokenIds.length < block * blockSize :=
    (Nat.div_lt_iff_lt_mul positive).mp later
  omega

/-- The last input ends in the block that the prompt fills in part, or before it. -/
theorem passedBy_of_numPromptBlocks (partly : block = content.numPromptBlocks blockSize)
    {feature : MultiModalFeatureSpec} (member : feature ∈ content.mmFeatures) :
    feature.passedBy (block * blockSize + blockSize) = true := by
  have ends := content.stop_lt_of_numPromptBlocks_lt positive
    (Nat.lt_succ_self _) member
  rw [Nat.succ_mul, ← partly] at ends
  rw [passedBy_iff]
  have offset_le : feature.mmPosition.offset ≤ feature.mmPosition.stop := Nat.le_add_right _ _
  omega

/-- `_gen_mm_extra_hash_keys` returns the identifiers of the block, and the index for the next. -/
theorem genMmExtraHashKeys_eq {currMmIdx : Int}
    (indexed : content.Indexed blockSize block currMmIdx) :
    ∃ nextMmIdx, genMmExtraHashKeys content.mmFeatures (block * blockSize)
        (block * blockSize + blockSize) currMmIdx =
          some (content.seenIds blockSize block, nextMmIdx) ∧
      (block + 1 ≠ content.numPromptBlocks blockSize →
        content.Indexed blockSize (block + 1) nextMmIdx) := by
  have ordered : block * blockSize ≤ block * blockSize + blockSize := Nat.le_add_right _ _
  unfold seenIds
  cases found : content.mmFeatures.getLast? with
  | none =>
    refine ⟨currMmIdx, by simp [genMmExtraHashKeys, found], ?_⟩
    intro _
    unfold Indexed
    simp [found]
  | some last =>
    have member := List.mem_of_getLast? found
    by_cases ended : last.mmPosition.stop < block * blockSize
    · refine ⟨currMmIdx, by simp [genMmExtraHashKeys_ended found ended, ended], ?_⟩
      intro _
      unfold Indexed
      intro other isLast running
      cases Option.some.inj (found.symm.trans isLast)
      rw [Nat.succ_mul] at running
      omega
    · have running := Nat.not_lt.mp ended
      have index := indexed last found running
      by_cases partly : 0 < block ∧ block = content.numPromptBlocks blockSize
      · -- The block that generated tokens complete: the loop sees the last input only.
        rw [if_pos partly] at index
        have passed := content.passedBy_of_numPromptBlocks positive partly.2 member
        have ids : reachedIds (block * blockSize) (block * blockSize + blockSize) [last] =
            [last.identifier] := by
          rw [reachedIds_cons_passed [] passed, if_pos running, reachedIds_nil]
        obtain ⟨nextMmIdx, returned⟩ := genMmExtraHashKeys_neg_one found ordered running
        refine ⟨nextMmIdx, ?_, ?_⟩
        · rw [index, returned, ids]
          simp only [if_neg ended, if_pos partly]
        · intro _
          unfold Indexed
          intro other isLast later
          have ends := content.stop_lt_of_numPromptBlocks_lt positive
            (partly.2 ▸ Nat.lt_succ_self _ : content.numPromptBlocks blockSize < block + 1)
            (List.mem_of_getLast? isLast)
          omega
      · rw [if_neg partly] at index
        have returned := genMmExtraHashKeys_natCast found ordered running
          (content.mmFeatures.takeWhile
            (passedBy (block * blockSize))).length
        rw [drop_length_takeWhile, length_takeWhile_passedBy ordered] at returned
        refine ⟨((content.mmFeatures.takeWhile (passedBy
          (block * blockSize + blockSize))).length : Int), ?_, ?_⟩
        · rw [index, returned]
          simp [ended, partly]
        · intro notPartly
          unfold Indexed
          intro other isLast later
          rw [if_neg (fun next => notPartly next.2), Nat.succ_mul]

theorem indexed_start (apart : content.numPromptBlocks blockSize ≤ block ∨ block = 0) :
    content.Indexed blockSize block (if 0 < block * blockSize then -1 else 0) := by
  intro last found running
  by_cases first : block = 0
  · have none_passed : content.mmFeatures.takeWhile (passedBy 0) = [] := by
      cases content.mmFeatures with
      | nil => rfl
      | cons feature rest =>
        simp [passedBy, PlaceholderRange.passedBy]
    simp [first, none_passed]
  · have partly : block = content.numPromptBlocks blockSize := by
      by_contra different
      have ends := content.stop_lt_of_numPromptBlocks_lt positive
        (by omega : content.numPromptBlocks blockSize < block) (List.mem_of_getLast? found)
      omega
    have later : 0 < block := Nat.pos_of_ne_zero first
    rw [if_pos (Nat.mul_pos later positive), if_pos ⟨later, partly⟩]

end

end RequestContent

/-! ## The hash of a block, from the content of the request -/

namespace RequestContent

def blockKeys (content : RequestContent) (blockSize block : Nat) : Option (List HashKey) :=
  content.extraKeysOf (block * blockSize) (block * blockSize + blockSize)
    (content.seenIds blockSize block)

end RequestContent

def blockTokens (blockSize : Nat) (tokens : List Nat) (block : Nat) : List Nat :=
  (tokens.drop (block * blockSize)).take blockSize

theorem blockTokens_append {blockSize block : Nat} {tokens : List Nat} (more : List Nat)
    (full : block < tokens.length / blockSize) :
    blockTokens blockSize (tokens ++ more) block = blockTokens blockSize tokens block := by
  have inside : (block + 1) * blockSize ≤ tokens.length :=
    (Nat.mul_le_mul_right blockSize full).trans (Nat.div_mul_le_self _ _)
  rw [Nat.succ_mul] at inside
  unfold blockTokens
  rw [List.drop_append_of_le_length (by omega), List.take_append_of_le_length]
  rw [List.length_drop]
  omega

namespace RequestHasher

variable {H : Type} [DecidableEq H]

def chainStep (hasher : RequestHasher H) (parent : H) (input : List Nat × Option (List HashKey)) :
    H :=
  hasher.hashFunction (hasher.parentHash (some parent), input)

def blockInput (hasher : RequestHasher H) (content : RequestContent) (tokens : List Nat)
    (block : Nat) : List Nat × Option (List HashKey) :=
  (blockTokens hasher.blockSize tokens block, content.blockKeys hasher.blockSize block)

def blockHash (hasher : RequestHasher H) (content : RequestContent) (tokens : List Nat) : Nat → H :=
  hashChain hasher.chainStep hasher.noneHash (hasher.blockInput content tokens)

def prevBlockHash (hasher : RequestHasher H) (content : RequestContent) (tokens : List Nat) :
    Nat → Option H
  | 0 => none
  | block + 1 => some (hasher.blockHash content tokens block)

variable (hasher : RequestHasher H) (content : RequestContent)

theorem chainStep_noneHash (input : List Nat × Option (List HashKey)) :
    hasher.chainStep hasher.noneHash input = hasher.hashFunction (hasher.noneHash, input) := by
  simp [chainStep, parentHash]

theorem blockHash_eq (tokens : List Nat) (block : Nat) :
    hasher.blockHash content tokens block =
      hasher.hashBlockTokens (hasher.prevBlockHash content tokens block)
        (blockTokens hasher.blockSize tokens block)
        (content.blockKeys hasher.blockSize block) := by
  cases block with
  | zero => exact hasher.chainStep_noneHash _
  | succ block => rfl

theorem blockHash_append {tokens : List Nat} (more : List Nat) {block : Nat}
    (full : block < tokens.length / hasher.blockSize) :
    hasher.blockHash content (tokens ++ more) block = hasher.blockHash content tokens block := by
  apply hashChain_congr
  intro earlier bound
  unfold blockInput
  rw [blockTokens_append more (Nat.lt_of_le_of_lt bound full)]

/-- One call hashes its blocks in order.  It ends before the block that the prompt fills in part,
or starts there or later. -/
theorem hashFullBlocks_eq (tokens : List Nat) {count block : Nat} {currMmIdx : Int}
    (indexed : content.Indexed hasher.blockSize block currMmIdx)
    (apart : block + count ≤ content.numPromptBlocks hasher.blockSize ∨
      content.numPromptBlocks hasher.blockSize ≤ block) :
    hasher.hashFullBlocks content tokens count (block * hasher.blockSize) currMmIdx
        (hasher.prevBlockHash content tokens block) =
      some ((List.range' block count).map (hasher.blockHash content tokens)) := by
  induction count generalizing block currMmIdx with
  | zero => rfl
  | succ count ih =>
    obtain ⟨nextMmIdx, returned, next⟩ :=
      content.genMmExtraHashKeys_eq hasher.blockSize_pos indexed
    have keys : content.generateBlockHashExtraKeys (block * hasher.blockSize)
        (block * hasher.blockSize + hasher.blockSize) currMmIdx =
          some (content.blockKeys hasher.blockSize block, nextMmIdx) := by
      simp [RequestContent.generateBlockHashExtraKeys, returned, RequestContent.blockKeys]
    have hashed : hasher.hashBlockTokens (hasher.prevBlockHash content tokens block)
        ((tokens.drop (block * hasher.blockSize)).take hasher.blockSize)
        (content.blockKeys hasher.blockSize block) = hasher.blockHash content tokens block :=
      (hasher.blockHash_eq content tokens block).symm
    have rest : hasher.hashFullBlocks content tokens count
        (block * hasher.blockSize + hasher.blockSize) nextMmIdx
        (some (hasher.blockHash content tokens block)) =
          some ((List.range' (block + 1) count).map (hasher.blockHash content tokens)) := by
      cases count with
      | zero => rfl
      | succ count =>
        rw [← Nat.succ_mul]
        exact ih (next (by omega)) (by omega)
    simp only [hashFullBlocks, keys, hashed, rest, Option.bind_eq_bind, Option.bind_some,
      List.range'_succ, List.map_cons, Option.pure_def]

structure Tracks (hasher : RequestHasher H) (content : RequestContent) (outputs : List Nat)
    (request : HashedRequest H) : Prop where
  content_eq : request.content = content
  tokens : request.allTokenIds = content.promptTokenIds ++ outputs
  hashes : request.blockHashes = (List.range (request.allTokenIds.length / hasher.blockSize)).map
    (hasher.blockHash content request.allTokenIds)

theorem getLast?_blockHashes (tokens : List Nat) (block : Nat) :
    ((List.range block).map (hasher.blockHash content tokens)).getLast? =
      hasher.prevBlockHash content tokens block := by
  cases block with
  | zero => rfl
  | succ block => simp [List.range_succ, prevBlockHash]

variable {request : HashedRequest H}

theorem requestBlockHasher_eq {block : Nat}
    (hashes : request.blockHashes =
      (List.range block).map (hasher.blockHash request.content request.allTokenIds))
    (apart : request.content.numPromptBlocks hasher.blockSize ≤ block ∨ block = 0 ∧
      request.allTokenIds.length / hasher.blockSize =
        request.content.numPromptBlocks hasher.blockSize) :
    hasher.requestBlockHasher request =
      some ((List.range' block (request.allTokenIds.length / hasher.blockSize - block)).map
        (hasher.blockHash request.content request.allTokenIds)) := by
  have hashed : request.blockHashes.length = block := by simp [hashes]
  unfold requestBlockHasher
  simp only [hashed]
  by_cases short : request.allTokenIds.length < block * hasher.blockSize + hasher.blockSize
  · have none_new : request.allTokenIds.length / hasher.blockSize - block = 0 := by
      rw [← Nat.succ_mul] at short
      have bound := (Nat.div_lt_iff_lt_mul hasher.blockSize_pos).mpr short
      omega
    simp [short, none_new]
  · rw [if_neg short, Nat.mul_comm block, Nat.sub_mul_div, Nat.mul_comm _ block, hashes,
      getLast?_blockHashes]
    apply hasher.hashFullBlocks_eq
    · exact request.content.indexed_start hasher.blockSize_pos (apart.imp_right And.left)
    · omega

theorem requestBlockHasher_complete {block : Nat}
    (inside : block ≤ request.allTokenIds.length / hasher.blockSize)
    (hashes : request.blockHashes =
      (List.range block).map (hasher.blockHash request.content request.allTokenIds))
    (apart : request.content.numPromptBlocks hasher.blockSize ≤ block ∨ block = 0 ∧
      request.allTokenIds.length / hasher.blockSize =
        request.content.numPromptBlocks hasher.blockSize) :
    ∃ fresh, hasher.requestBlockHasher request = some fresh ∧
      request.blockHashes ++ fresh =
        (List.range (request.allTokenIds.length / hasher.blockSize)).map
          (hasher.blockHash request.content request.allTokenIds) := by
  refine ⟨_, hasher.requestBlockHasher_eq hashes apart, ?_⟩
  rw [hashes, ← List.map_append, List.range_eq_range', List.range_eq_range']
  have joined : List.range' 0 block ++
      List.range' (0 + block) (request.allTokenIds.length / hasher.blockSize - block) =
        List.range' 0 (block + (request.allTokenIds.length / hasher.blockSize - block)) :=
    List.range'_append_1
  rw [Nat.zero_add, Nat.add_sub_cancel' inside] at joined
  rw [joined]

theorem init_tracks :
    ∃ request, hasher.init content = some request ∧ hasher.Tracks content [] request := by
  let empty : HashedRequest H := ⟨content, content.promptTokenIds, []⟩
  have hashes : empty.blockHashes = (List.range 0).map
      (hasher.blockHash empty.content empty.allTokenIds) := rfl
  obtain ⟨fresh, returned, all⟩ :=
    hasher.requestBlockHasher_complete (Nat.zero_le _) hashes (Or.inr ⟨rfl, rfl⟩)
  refine ⟨{ empty with blockHashes := fresh }, ?_, ⟨rfl, (List.append_nil _).symm, all⟩⟩
  simp only [init]
  rw [returned]
  rfl

theorem Tracks.appendOutputTokenIds {hasher : RequestHasher H} {content : RequestContent}
    {outputs : List Nat} (tracks : hasher.Tracks content outputs request) (tokenIds : List Nat) :
    ∃ next, hasher.appendOutputTokenIds request tokenIds = some next ∧
      hasher.Tracks content (outputs ++ tokenIds) next := by
  let longer : HashedRequest H :=
    { request with allTokenIds := request.allTokenIds ++ tokenIds }
  have grows : request.allTokenIds.length / hasher.blockSize ≤
      longer.allTokenIds.length / hasher.blockSize :=
    Nat.div_le_div_right (by simp [longer])
  -- Blocks that were full already keep their hash.
  have kept : longer.blockHashes =
      (List.range (request.allTokenIds.length / hasher.blockSize)).map
        (hasher.blockHash longer.content longer.allTokenIds) := by
    rw [show longer.blockHashes = request.blockHashes from rfl, tracks.hashes]
    apply List.map_congr_left
    intro block member
    have same := hasher.blockHash_append content tokenIds (List.mem_range.mp member)
    rw [← same, ← tracks.content_eq]
  have apart : longer.content.numPromptBlocks hasher.blockSize ≤
      request.allTokenIds.length / hasher.blockSize := by
    rw [show longer.content = content from tracks.content_eq, tracks.tokens]
    exact Nat.div_le_div_right (by simp)
  obtain ⟨fresh, returned, all⟩ :=
    hasher.requestBlockHasher_complete grows kept (Or.inl apart)
  refine ⟨{ longer with blockHashes := longer.blockHashes ++ fresh }, ?_, ?_⟩
  · simp only [RequestHasher.appendOutputTokenIds]
    rw [returned]
    rfl
  · refine ⟨tracks.content_eq, ?_, ?_⟩
    · simp [longer, tracks.tokens]
    · rw [all, show longer.content = content from tracks.content_eq]

/-- The hashes after any sequence of calls are those of the full blocks. -/
theorem build_tracks (calls : List (List Nat)) :
    ∃ request, hasher.build content calls = some request ∧
      hasher.Tracks content calls.flatten request := by
  have run : ∀ (calls : List (List Nat)) (outputs : List Nat) (request : HashedRequest H),
      hasher.Tracks content outputs request →
        ∃ final, calls.foldlM hasher.appendOutputTokenIds request = some final ∧
          hasher.Tracks content (outputs ++ calls.flatten) final := by
    intro calls
    induction calls with
    | nil =>
      intro outputs request tracks
      exact ⟨request, rfl, by simpa using tracks⟩
    | cons call rest ih =>
      intro outputs request tracks
      obtain ⟨next, appended, nextTracks⟩ := tracks.appendOutputTokenIds call
      obtain ⟨final, finished, finalTracks⟩ := ih _ next nextTracks
      refine ⟨final, ?_, by simpa using finalTracks⟩
      simp [List.foldlM_cons, appended, finished]
  obtain ⟨request, started, tracks⟩ := hasher.init_tracks content
  obtain ⟨final, finished, finalTracks⟩ := run calls [] request tracks
  refine ⟨final, ?_, finalTracks⟩
  simp [build, started, finished]

end RequestHasher

end Kalypso.Engine
