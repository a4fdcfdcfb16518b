import Kalypso.Lib.Dict
import Kalypso.Lib.Raise
import Mathlib.Data.Rat.Floor

/-!
# Offloading managers

`LRUOffloadingManager` and `ARCOffloadingManager` keep the blocks stored by a CPU backend.  Room
for new blocks is made by evicting idle ones, those with `ref_cnt = 0`.  LRU selects all victims
before it evicts; ARC evicts one block at a time and may give up midway.
-/

set_option autoImplicit false

namespace Kalypso.Engine

open Lib

variable {K : Type} [DecidableEq K]

inductive OffloadingError
  | assertion
  | keyError
  deriving DecidableEq

structure BlockStatus where
  refCnt : Int32
  blockId : Nat
  deriving DecidableEq

/-- `ref_cnt` is −1 until the store of the block completes. -/
def BlockStatus.isReady (block : BlockStatus) : Bool := 0 ≤ block.refCnt

structure CPUBackend where
  blockSize : Nat
  numBlocks : Nat
  numAllocatedBlocks : Nat
  allocatedBlocksFreeList : List Nat
  withinBlocks : numAllocatedBlocks ≤ numBlocks

namespace CPUBackend

def init (blockSize numBlocks : Nat) : CPUBackend := ⟨blockSize, numBlocks, 0, [], Nat.zero_le _⟩

def medium : String := "CPU"

def getNumFreeBlocks (backend : CPUBackend) : Nat :=
  backend.allocatedBlocksFreeList.length + (backend.numBlocks - backend.numAllocatedBlocks)

/-- Fresh ids first, then ids from the end of the free list. -/
def allocateBlocks (backend : CPUBackend) (blockHashes : List K) :
    Except OffloadingError (List BlockStatus × CPUBackend) :=
  let numFreshBlocks :=
    min blockHashes.length (backend.numBlocks - backend.numAllocatedBlocks)
  let numReusedBlocks := blockHashes.length - numFreshBlocks
  let freeList := backend.allocatedBlocksFreeList.reverse
  if freeList.length < numReusedBlocks then .error .assertion
  else
    let ids :=
      List.range' backend.numAllocatedBlocks numFreshBlocks ++ freeList.take numReusedBlocks
    .ok (ids.map (⟨-1, ·⟩),
      { backend with
        numAllocatedBlocks := backend.numAllocatedBlocks + numFreshBlocks
        allocatedBlocksFreeList := (freeList.drop numReusedBlocks).reverse
        withinBlocks := by have := backend.withinBlocks; omega })

def free (backend : CPUBackend) (block : BlockStatus) : CPUBackend :=
  { backend with
    allocatedBlocksFreeList := backend.allocatedBlocksFreeList ++ [block.blockId] }

/-- The blocks allocated for the hashes and the table with them. -/
def store (backend : CPUBackend) (table : Dict K BlockStatus) (blockHashes : List K) :
    Except OffloadingError (List BlockStatus × CPUBackend × Dict K BlockStatus) := do
  let (blocks, backend) ← backend.allocateBlocks blockHashes
  if blocks.length ≠ blockHashes.length then throw .assertion
  return (blocks, backend,
    (blockHashes.zip blocks).foldl (fun table entry => table.set entry.1 entry.2) table)

end CPUBackend

structure OffloadingEvent (K : Type) where
  blockHashes : List K
  blockSize : Nat
  medium : String
  removed : Bool
  deriving DecidableEq

/-- `self.events` with one event more, unless it is disabled or there is nothing to tell. -/
def logEvent (events : Option (List (OffloadingEvent K))) (backend : CPUBackend)
    (blockHashes : List K) (removed : Bool) : Option (List (OffloadingEvent K)) :=
  if blockHashes = [] then events
  else events.map (· ++ [⟨blockHashes, backend.blockSize, CPUBackend.medium, removed⟩])

structure PrepareStoreOutput (K : Type) where
  blockHashesToStore : List K
  storeSpec : List Nat
  blockHashesEvicted : List K
  deriving DecidableEq

/-- The hashes with `ref_cnt = 0`, in the order of the table. -/
def idle (entries : List (K × BlockStatus)) : List K :=
  (entries.filter fun entry => entry.2.refCnt = 0).map Prod.fst

structure LRUOffloadingManager (K : Type) where
  backend : CPUBackend
  blocks : Dict K BlockStatus
  events : Option (List (OffloadingEvent K))

namespace LRUOffloadingManager

section Model

variable (m : LRUOffloadingManager K) (blockHashes : List K)

def init (backend : CPUBackend) (enableEvents : Bool) : LRUOffloadingManager K :=
  ⟨backend, .empty, if enableEvents then some [] else none⟩

/-- The loop of `prepare_store` that builds `to_evict`; `none` where it ends without a break. -/
def toEvict : Nat → List (K × BlockStatus) → Option (List K)
  | 0, _ => some []
  | _ + 1, [] => none
  | n + 1, (h, block) :: rest =>
      if block.refCnt = 0 then (toEvict n rest).map (h :: ·) else toEvict (n + 1) rest

def pop (state : Dict K BlockStatus × CPUBackend) (h : K) :
    Except OffloadingError (Dict K BlockStatus × CPUBackend) :=
  match state.1.get? h with
  | some block => .ok (state.1.erase h, state.2.free block)
  | none => .error .keyError

def blockHashesToStore : List K := blockHashes.filter fun h => m.blocks.get? h = none

def numBlocksToEvict : Nat :=
  (m.blockHashesToStore blockHashes).length - m.backend.getNumFreeBlocks

/-- The oldest idle blocks, as many as there is room needed for. -/
def victims : List K := (idle m.blocks.entries).take (m.numBlocksToEvict blockHashes)

def prepareStore :
    Except OffloadingError (Option (PrepareStoreOutput K) × LRUOffloadingManager K) :=
  match toEvict (m.numBlocksToEvict blockHashes) m.blocks.entries with
  | none => .ok (none, m)
  | some evicted => do
      let (table, backend) ← evicted.foldlM pop (m.blocks, m.backend)
      let (blocks, backend, table) ← backend.store table (m.blockHashesToStore blockHashes)
      return (some ⟨m.blockHashesToStore blockHashes, blocks.map BlockStatus.blockId, evicted⟩,
        ⟨backend, table, logEvent m.events backend evicted true⟩)

/-- One round of `complete_store`, with `stored_block_hashes`. -/
def completeOne (success : Bool) (state : LRUOffloadingManager K × List K) (h : K) :
    Except OffloadingError (LRUOffloadingManager K × List K) :=
  let (m, stored) := state
  match m.blocks.get? h with
  | none => .error .keyError
  | some block =>
      if block.isReady then .ok (m, stored)
      else if success then
        .ok ({ m with blocks := m.blocks.set h { block with refCnt := 0 } },
          stored ++ [h])
      else
        .ok ({ m with blocks := m.blocks.erase h, backend := m.backend.free block },
          stored)

def completeStore (success : Bool) : Except OffloadingError (LRUOffloadingManager K) := do
  let (m, stored) ← blockHashes.foldlM (completeOne success) (m, [])
  return { m with events := logEvent m.events m.backend stored false }

end Model

end LRUOffloadingManager

structure ARCOffloadingManager (K : Type) where
  backend : CPUBackend
  targetT1Size : ℚ
  t1 : Dict K BlockStatus
  t2 : Dict K BlockStatus
  b1 : Dict K Unit
  b2 : Dict K Unit
  events : Option (List (OffloadingEvent K))
  cacheCapacity : Nat

namespace ARCOffloadingManager

section Model

variable (m : ARCOffloadingManager K) (blockHashes : List K)

def init (backend : CPUBackend) (enableEvents : Bool) : ARCOffloadingManager K :=
  { backend, targetT1Size := 0, t1 := .empty, t2 := .empty, b1 := .empty, b2 := .empty
    events := if enableEvents then some [] else none
    cacheCapacity := backend.getNumFreeBlocks }

/-- `self.t1.get(block_hash) or self.t2.get(block_hash)`. -/
def block? (h : K) : Option BlockStatus :=
  (m.t1.get? h).or (m.t2.get? h)

/-- The block found by `block?` with another `ref_cnt`. -/
def setRefCnt (h : K) (block : BlockStatus) (refCnt : Int32) : ARCOffloadingManager K :=
  if m.t1.get? h = none then
    { m with t2 := m.t2.set h { block with refCnt } }
  else { m with t1 := m.t1.set h { block with refCnt } }

def prepareLoad : Except OffloadingError (List Nat × ARCOffloadingManager K) :=
  blockHashes.foldlM (fun (spec, m) h =>
    match m.block? h with
    | none => .error .assertion
    | some block =>
        if block.isReady then
          .ok (spec ++ [block.blockId], m.setRefCnt h block (block.refCnt + 1))
        else .error .assertion) ([], m)

def blockHashesToStore : List K :=
  blockHashes.filter fun h => m.t1.get? h = none ∧ m.t2.get? h = none

def numBlocksToEvict : Nat :=
  (m.blockHashesToStore blockHashes).length - m.backend.getNumFreeBlocks

/-- The oldest idle block. -/
def oldest (table : Dict K BlockStatus) : Option (K × BlockStatus) :=
  table.entries.find? fun entry => entry.2.refCnt = 0

/-- One round of the loop that evicts; `none` for `return None`. -/
def evictOne : Option (K × ARCOffloadingManager K) :=
  match if ⌊m.targetT1Size⌋ ≤ m.t1.entries.length then oldest m.t1 else none with
  | some (h, block) =>
      some (h, { m with
        t1 := m.t1.erase h
        b1 := m.b1.set h ()
        backend := m.backend.free block })
  | none => (oldest m.t2).map fun (h, block) =>
      (h, { m with
        t2 := m.t2.erase h
        b2 := m.b2.set h ()
        backend := m.backend.free block })

/-- The loop, which leaves the blocks evicted so far evicted where it gives up. -/
def evict : Nat → List K → ARCOffloadingManager K → Option (List K) × ARCOffloadingManager K
  | 0, toEvict, m => (some toEvict, m)
  | n + 1, toEvict, m =>
      match m.evictOne with
      | none => (none, m)
      | some (h, m) => evict n (toEvict ++ [h]) m

/-- A ghost list after it is bounded and the hashes are removed from it. -/
def trim (capacity : Nat) (blockHashes : List K) (b : Dict K Unit) : Dict K Unit :=
  blockHashes.foldl Dict.erase ((b.keys.take (b.keys.length - capacity)).foldl Dict.erase b)

def prepareStore :
    Except OffloadingError (Option (PrepareStoreOutput K) × ARCOffloadingManager K) :=
  let toStore := m.blockHashesToStore blockHashes
  if toStore = [] then .ok (some ⟨[], [], []⟩, m)
  else
    match m.evict (m.numBlocksToEvict blockHashes) [] with
    | (none, m) => .ok (none, m)
    | (some evicted, m) => do
        let (blocks, backend, t1) ← m.backend.store m.t1 toStore
        return (some ⟨toStore, blocks.map BlockStatus.blockId, evicted⟩,
          { m with
            backend, t1
            b1 := trim m.cacheCapacity toStore m.b1
            b2 := trim m.cacheCapacity toStore m.b2
            events := logEvent m.events backend evicted true })

/-- One round of `complete_store`, with `stored_block_hashes`. -/
def completeOne (success : Bool) (state : ARCOffloadingManager K × List K) (h : K) :
    ARCOffloadingManager K × List K :=
  let (m, stored) := state
  match m.block? h with
  | none => (m, stored)
  | some block =>
      if success then
        if block.isReady then (m, stored)
        else (m.setRefCnt h block 0, stored ++ [h])
      else
        -- The block is popped even if it is ready, and freed only if it is not.
        let backend := if block.isReady then m.backend else m.backend.free block
        if m.t1.get? h = none then
          ({ m with t2 := m.t2.erase h, backend }, stored)
        else ({ m with t1 := m.t1.erase h, backend }, stored)

def completeStore (success : Bool) : ARCOffloadingManager K :=
  let (m, stored) := blockHashes.foldl (completeOne success) (m, [])
  { m with events := logEvent m.events m.backend stored false }

def evictable : List K := idle m.t1.entries ++ idle m.t2.entries

def Holds (h : K) : Prop := h ∈ m.t1.keys ∨ h ∈ m.t2.keys

/-- How many idle blocks the loop can take from T1 before T1 is below its target. -/
def numFromT1 : Nat :=
  if ⌊m.targetT1Size⌋ ≤ m.t1.entries.length then
    min (idle m.t1.entries).length (m.t1.entries.length - ⌊m.targetT1Size⌋.toNat + 1)
  else 0

def numVictims : Nat := m.numFromT1 + (idle m.t2.entries).length

/-- The blocks that `n` rounds of the loop evict: those of T1 first, then those of T2. -/
def victims (n : Nat) : List K :=
  (idle m.t1.entries).take (min n m.numFromT1) ++ (idle m.t2.entries).take (n - m.numFromT1)

end Model

end ARCOffloadingManager

/-! ## Storing the new blocks -/

theorem CPUBackend.store_keys {backend backend' : CPUBackend} {table table' : Dict K BlockStatus}
    {blockHashes : List K} {blocks : List BlockStatus}
    (stores : backend.store table blockHashes = .ok (blocks, backend', table')) (h : K) :
    h ∈ table'.keys ↔ h ∈ blockHashes ∨ h ∈ table.keys := by
  have setAll : ∀ (entries : List (K × BlockStatus)) (table : Dict K BlockStatus),
      h ∈ (entries.foldl (fun table entry => table.set entry.1 entry.2) table).keys ↔
        h ∈ entries.map Prod.fst ∨ h ∈ table.keys := by
    intro entries
    induction entries with
    | nil => simp
    | cons entry rest ih =>
      intro table
      rw [List.foldl_cons, ih]
      simp only [Dict.keys, Dict.set, Dict.mem_keys_assign, List.map_cons, List.mem_cons]
      tauto
  obtain ⟨⟨allocated, rest⟩, -, returns⟩ := bind_eq_ok.mp stores
  dsimp only at returns
  split at returns
  · cases returns
  · rename_i sameLength
    obtain ⟨rfl, rfl, rfl⟩ : allocated = blocks ∧ rest = backend' ∧ _ = table' := by
      simpa [pure, Except.pure] using returns
    rw [setAll, List.map_fst_zip (by omega)]

/-! ## LRU -/

namespace LRUOffloadingManager

omit [DecidableEq K] in
theorem toEvict_cases (n : Nat) (entries : List (K × BlockStatus)) :
    match toEvict n entries with
    | none => (idle entries).length < n
    | some evicted => evicted = (idle entries).take n := by
  induction entries generalizing n with
  | nil => cases n <;> simp [toEvict, idle]
  | cons entry rest ih =>
    obtain ⟨h, block⟩ := entry
    cases n with
    | zero => simp [toEvict]
    | succ n =>
      by_cases isIdle : block.refCnt = 0
      · have shorter := ih n
        cases scan : toEvict n rest <;> simp_all [toEvict, idle]
      · have same := ih (n + 1)
        cases scan : toEvict (n + 1) rest <;> simp_all [toEvict, idle]

theorem get?_pop_all {evicted : List K} {state state' : Dict K BlockStatus × CPUBackend}
    (pops : evicted.foldlM pop state = .ok state') {h : K} (kept : h ∉ evicted) :
    state'.1.get? h = state.1.get? h := by
  induction evicted generalizing state with
  | nil =>
    cases pops
    rfl
  | cons victim rest ih =>
    obtain ⟨next, popped, pops⟩ := bind_eq_ok.mp pops
    simp only [List.mem_cons, not_or] at kept
    rw [ih pops kept.2]
    unfold pop at popped
    split at popped
    · cases popped
      exact Dict.get?_erase_of_ne _ kept.1
    · cases popped

variable {m m' : LRUOffloadingManager K} {blockHashes : List K}

theorem prepareStore_refused (refused : m.prepareStore blockHashes = .ok (none, m')) :
    (idle m.blocks.entries).length < m.numBlocksToEvict blockHashes ∧ m' = m := by
  have scan := toEvict_cases (m.numBlocksToEvict blockHashes) m.blocks.entries
  unfold prepareStore at refused
  split at refused
  · rename_i given
    rw [given] at scan
    cases refused
    exact ⟨scan, rfl⟩
  · obtain ⟨_, -, refused⟩ := bind_eq_ok.mp refused
    obtain ⟨_, -, refused⟩ := bind_eq_ok.mp refused
    cases refused

theorem prepareStore_eq_some {output : PrepareStoreOutput K}
    (stores : m.prepareStore blockHashes = .ok (some output, m')) :
    output.blockHashesEvicted = m.victims blockHashes ∧
      ∃ table backend blocks,
        output.blockHashesEvicted.foldlM pop (m.blocks, m.backend) = .ok (table, backend) ∧
        backend.store table (m.blockHashesToStore blockHashes) =
          .ok (blocks, m'.backend, m'.blocks) := by
  have scan := toEvict_cases (m.numBlocksToEvict blockHashes) m.blocks.entries
  unfold prepareStore at stores
  split at stores
  · cases stores
  · rename_i evicted given
    rw [given] at scan
    obtain ⟨⟨table, backend⟩, pops, stores⟩ := bind_eq_ok.mp stores
    obtain ⟨⟨blocks, backend', table'⟩, placed, returns⟩ := bind_eq_ok.mp stores
    cases returns
    exact ⟨scan, table, backend, blocks, pops, placed⟩

theorem prepareStore_stored {output : PrepareStoreOutput K}
    (stores : m.prepareStore blockHashes = .ok (some output, m')) :
    ∀ h ∈ blockHashes, h ∉ output.blockHashesEvicted → h ∈ m'.blocks.keys := by
  obtain ⟨-, table, backend, blocks, pops, placed⟩ := prepareStore_eq_some stores
  intro h listed kept
  refine (CPUBackend.store_keys placed h).mpr ?_
  rw [blockHashesToStore, List.mem_filter, decide_eq_true_iff]
  by_cases absent : m.blocks.get? h = none
  · exact .inl ⟨listed, absent⟩
  · refine .inr ?_
    rw [← not_not (a := h ∈ _), ← Dict.get?_eq_none_iff, get?_pop_all pops kept]
    exact absent

end LRUOffloadingManager

/-! ## ARC -/

namespace ARCOffloadingManager

omit [DecidableEq K] in
theorem oldest_eq_none {table : Dict K BlockStatus} (missing : oldest table = none) :
    idle table.entries = [] := by
  simpa [oldest, idle] using missing

theorem idle_remove {h : K} {block : BlockStatus} {entries : List (K × BlockStatus)}
    (distinct : (entries.map Prod.fst).Nodup)
    (found : entries.find? (fun entry => entry.2.refCnt = 0) = some (h, block)) :
    idle entries = h :: idle (Dict.remove h entries) := by
  induction entries with
  | nil => cases found
  | cons entry rest ih =>
    obtain ⟨head, status⟩ := entry
    by_cases isIdle : status.refCnt = 0
    · rw [List.find?_cons_of_pos (by simpa using isIdle)] at found
      cases found
      simp [idle, Dict.remove, isIdle]
    · rw [List.find?_cons_of_neg (by simpa using isIdle)] at found
      rw [List.map_cons, List.nodup_cons] at distinct
      have other : head ≠ h := fun same =>
        distinct.1 (List.mem_map.mpr ⟨_, List.mem_of_find?_eq_some found, same.symm⟩)
      simpa [idle, Dict.remove, isIdle, other] using ih distinct.2 found

theorem oldest_eq_some {table : Dict K BlockStatus} {h : K} {block : BlockStatus}
    (found : oldest table = some (h, block)) :
    idle table.entries = h :: idle (table.erase h).entries ∧
      table.entries.length = (table.erase h).entries.length + 1 := by
  have listed : h ∈ table.keys := List.mem_map_of_mem (List.mem_of_find?_eq_some found)
  exact ⟨idle_remove table.nodup found, (Dict.length_erase table listed).symm⟩

theorem mem_keys_erase {table : Dict K BlockStatus} {victim h : K}
    (other : h ≠ victim) (stored : h ∈ table.keys) : h ∈ (table.erase victim).keys := by
  rw [Dict.keys_erase]
  exact (List.mem_erase_of_ne other).mpr stored

variable {m m' : ARCOffloadingManager K} {blockHashes : List K}

omit [DecidableEq K] in
theorem numFromT1_eq_zero :
    m.numFromT1 = 0 ↔
      idle m.t1.entries = [] ∨ (m.t1.entries.length : Int) < ⌊m.targetT1Size⌋ := by
  rw [← List.length_eq_zero_iff, ← not_le]
  unfold numFromT1
  split <;> omega

theorem evictOne_eq_none (stuck : m.evictOne = none) : m.numVictims = 0 := by
  unfold evictOne at stuck
  split at stuck
  · cases stuck
  · rename_i noT1
    have noT2 := oldest_eq_none (Option.map_eq_none_iff.mp stuck)
    have fromT1 : m.numFromT1 = 0 := by
      rw [numFromT1_eq_zero]
      split at noT1
      · exact .inl (oldest_eq_none noT1)
      · exact .inr (by omega)
    rw [numVictims, fromT1, noT2]
    rfl

theorem evictOne_eq_some {victim : K} (evicts : m.evictOne = some (victim, m')) :
    m.numVictims = m'.numVictims + 1 ∧ (∀ n, m.victims (n + 1) = victim :: m'.victims n) ∧
      ∀ h ≠ victim, m.Holds h → m'.Holds h := by
  unfold evictOne at evicts
  split at evicts
  · rename_i fromT1
    split at fromT1
    · rename_i aboveTarget
      cases evicts
      obtain ⟨idleT1, length⟩ := oldest_eq_some fromT1
      set m' : ARCOffloadingManager K := { m with
        t1 := m.t1.erase victim, b1 := m.b1.set victim (), backend := m.backend.free _ } with next
      have count : m.numFromT1 = m'.numFromT1 + 1 := by
        simp only [numFromT1, if_pos aboveTarget, idleT1, List.length_cons, next]
        split <;> omega
      refine ⟨by simp only [numVictims, count, next]; omega, fun n => ?_,
        fun _ other => Or.imp_left (mem_keys_erase other)⟩
      simp only [victims, count, idleT1, Nat.add_min_add_right, List.take_succ_cons,
        Nat.add_sub_add_right, List.cons_append, next]
    · cases fromT1
  · rename_i noT1
    obtain ⟨⟨_, block⟩, found, same⟩ := Option.map_eq_some_iff.mp evicts
    cases same
    obtain ⟨idleT2, -⟩ := oldest_eq_some found
    have none : m.numFromT1 = 0 := by
      rw [numFromT1_eq_zero]
      split at noT1
      · exact .inl (oldest_eq_none noT1)
      · exact .inr (by omega)
    have none' : ({ m with
        t2 := m.t2.erase victim, b2 := m.b2.set victim (), backend := m.backend.free block } :
          ARCOffloadingManager K).numFromT1 = 0 := none
    refine ⟨?_, fun n => ?_, fun _ other => Or.imp_right (mem_keys_erase other)⟩
    · simp only [numVictims, none, none', idleT2, List.length_cons]
      omega
    · simp [victims, none, none', idleT2]

/-- The loop evicts its victims if there are enough, and gives up after the last one otherwise. -/
theorem evict_cases (n : Nat) (toEvict : List K) :
    match m.evict n toEvict with
    | (none, m') => m.numVictims < n ∧ (m' = m ↔ m.numVictims = 0)
    | (some evicted, m') => n ≤ m.numVictims ∧ evicted = toEvict ++ m.victims n ∧
        ∀ h ∉ m.victims n, m.Holds h → m'.Holds h := by
  suffices spec : match m.evict n toEvict with
      | (none, m') => m.numVictims < n ∧ m'.numVictims = 0 ∧ (m.numVictims = 0 → m' = m)
      | (some evicted, m') => n ≤ m.numVictims ∧ evicted = toEvict ++ m.victims n ∧
          ∀ h ∉ m.victims n, m.Holds h → m'.Holds h by
    split at spec
    · obtain ⟨few, ended, unchanged⟩ := spec
      exact ⟨few, fun same => same ▸ ended, unchanged⟩
    · exact spec
  induction n generalizing m toEvict with
  | zero => exact ⟨Nat.zero_le _, by simp [victims], fun _ _ held => held⟩
  | succ n ih =>
    unfold evict
    cases evicts : m.evictOne with
    | none =>
      have nothing := evictOne_eq_none evicts
      exact ⟨by omega, nothing, fun _ => rfl⟩
    | some found =>
      obtain ⟨victim, next⟩ := found
      obtain ⟨counted, taken, keeps⟩ := evictOne_eq_some evicts
      have later := ih (m := next) (toEvict ++ [victim])
      dsimp only
      split at later
      · exact ⟨by omega, later.2.1, by omega⟩
      · obtain ⟨enough, evicted, keepsRest⟩ := later
        refine ⟨by omega, by rw [evicted, taken]; simp, fun h kept held => ?_⟩
        rw [taken, List.mem_cons, not_or] at kept
        exact keepsRest h kept.2 (keeps h kept.1 held)

theorem prepareStore_refused (refused : m.prepareStore blockHashes = .ok (none, m')) :
    m.numVictims < m.numBlocksToEvict blockHashes ∧ (m' = m ↔ m.numVictims = 0) := by
  unfold prepareStore at refused
  dsimp only at refused
  split at refused
  · cases refused
  · have spec := m.evict_cases (m.numBlocksToEvict blockHashes) []
    split at refused
    · rename_i stopped
      cases refused
      rwa [stopped] at spec
    · obtain ⟨_, -, refused⟩ := bind_eq_ok.mp refused
      cases refused

theorem exists_refused (few : m.numVictims < m.numBlocksToEvict blockHashes) :
    ∃ m', m.prepareStore blockHashes = .ok (none, m') := by
  have some_new : m.blockHashesToStore blockHashes ≠ [] := by
    intro nothing
    simp [numBlocksToEvict, nothing] at few
  have spec := m.evict_cases (m.numBlocksToEvict blockHashes) []
  unfold prepareStore
  simp only [if_neg some_new]
  split at spec
  · exact ⟨_, rfl⟩
  · omega

theorem prepareStore_stored {output : PrepareStoreOutput K}
    (stores : m.prepareStore blockHashes = .ok (some output, m')) :
    output.blockHashesEvicted = m.victims (m.numBlocksToEvict blockHashes) ∧
      ∀ h ∈ blockHashes, h ∉ output.blockHashesEvicted → m'.Holds h := by
  have held : ∀ h ∈ blockHashes, h ∉ m.blockHashesToStore blockHashes →
      m.Holds h := by
    intro h listed notNew
    simp only [blockHashesToStore, List.mem_filter, decide_eq_true_iff, Dict.get?_eq_none_iff,
      not_and] at notNew
    have := notNew listed
    unfold Holds
    tauto
  unfold prepareStore at stores
  dsimp only at stores
  split at stores
  · rename_i nothing
    cases stores
    refine ⟨by simp [victims, numBlocksToEvict, nothing], fun h listed _ => ?_⟩
    exact held h listed (by simp [nothing])
  · have spec := m.evict_cases (m.numBlocksToEvict blockHashes) []
    split at stores
    · cases stores
    · rename_i done
      obtain ⟨⟨blocks, backend, t1⟩, placed, returns⟩ := bind_eq_ok.mp stores
      cases returns
      rw [done] at spec
      obtain ⟨-, rfl, keeps⟩ := spec
      refine ⟨rfl, fun h listed kept => ?_⟩
      have placedKeys := CPUBackend.store_keys placed h
      by_cases new : h ∈ m.blockHashesToStore blockHashes
      · exact .inl (placedKeys.mpr (.inl new))
      · exact (keeps h kept (held h listed new)).imp_left
          (placedKeys.mpr ∘ .inr)

end ARCOffloadingManager

/-! ## The results -/

open ARCOffloadingManager

/-- A call of LRU that is refused lacked idle blocks and changed nothing.  For ARC the same holds
exactly where its loop can evict enough blocks, or cannot evict any: no block is idle, or the idle
ones are in T1, too few, and T1 is below its target. -/
theorem prepareStore_none_unchanged :
    (∀ (m m' : LRUOffloadingManager K) (blockHashes : List K),
      m.prepareStore blockHashes = .ok (none, m') →
      (idle m.blocks.entries).length < m.numBlocksToEvict blockHashes ∧ m' = m) ∧
    ∀ (m : ARCOffloadingManager K) (blockHashes : List K),
      (∀ m', m.prepareStore blockHashes = .ok (none, m') →
        m.evictable.length < m.numBlocksToEvict blockHashes ∧ m' = m) ↔
      m.numBlocksToEvict blockHashes ≤ m.numVictims ∨
        idle m.t2.entries = [] ∧ (idle m.t1.entries = [] ∨
          (m.t1.entries.length : Int) < ⌊m.targetT1Size⌋ ∧
            (idle m.t1.entries).length < m.numBlocksToEvict blockHashes) := by
  refine ⟨fun _ _ _ => LRUOffloadingManager.prepareStore_refused, fun m blockHashes => ?_⟩
  constructor
  · intro refusals
    rw [or_iff_not_imp_left, not_le]
    intro few
    obtain ⟨m', refused⟩ := exists_refused few
    obtain ⟨lacking, unchanged⟩ := refusals m' refused
    have none := (prepareStore_refused refused).2.mp unchanged
    rw [numVictims, Nat.add_eq_zero_iff, List.length_eq_zero_iff,
      numFromT1_eq_zero] at none
    obtain ⟨noT1, noT2⟩ := none
    rw [evictable, noT2, List.append_nil] at lacking
    exact ⟨noT2, noT1.imp_right fun below => ⟨below, lacking⟩⟩
  · intro condition m' refused
    obtain ⟨few, unchanged⟩ := prepareStore_refused refused
    obtain ⟨noT2, noT1⟩ := condition.resolve_left (not_le.mpr few)
    have none : m.numVictims = 0 := by
      rw [numVictims, Nat.add_eq_zero_iff, List.length_eq_zero_iff,
        numFromT1_eq_zero]
      exact ⟨noT1.imp_right And.left, noT2⟩
    refine ⟨?_, unchanged.mpr none⟩
    rw [evictable, noT2, List.append_nil]
    rcases noT1 with noT1 | ⟨-, lacking⟩
    · rw [noT1, List.length_nil]
      omega
    · exact lacking

/-- Two of three blocks are in use, and there is room needed for two: both managers refuse, ARC
since its first list is below its target. -/
theorem prepareStore_none_unchanged_inUse :
    let backend : CPUBackend := ⟨16, 3, 3, [], le_rfl⟩
    let lru : LRUOffloadingManager Nat :=
      ⟨backend, ⟨[(1, ⟨0, 0⟩), (2, ⟨1, 1⟩), (3, ⟨-1, 2⟩)], by decide⟩, none⟩
    let arc : ARCOffloadingManager Nat := ⟨backend, 2, ⟨[(1, ⟨0, 0⟩)], by decide⟩,
      ⟨[(2, ⟨1, 1⟩), (3, ⟨-1, 2⟩)], by decide⟩, .empty, .empty, none, 3⟩
    (∃ m', lru.prepareStore [4, 5] = .ok (none, m') ∧
      (idle lru.blocks.entries).length < lru.numBlocksToEvict [4, 5] ∧ m' = lru) ∧
    ∃ m', arc.prepareStore [4, 5] = .ok (none, m') ∧
      arc.evictable.length < arc.numBlocksToEvict [4, 5] ∧ m' = arc := by
  intro backend lru arc
  exact ⟨⟨_, rfl, prepareStore_none_unchanged.1 lru _ [4, 5] rfl⟩,
    ⟨_, rfl, (prepareStore_none_unchanged.2 arc [4, 5]).mpr (.inr (by decide +kernel)) _ rfl⟩⟩

/-- ARC: of the two blocks in the cache the second is being loaded.  Storing two more evicts the
first and then gives up. -/
theorem arc_refused_after_eviction :
    ∃ m m' : ARCOffloadingManager Nat,
      (do
        let (_, m) ← (init (.init 16 2) true).prepareStore [1, 2]
        let (_, m) ← (m.completeStore [1, 2] true).prepareLoad [2]
        return m) = .ok m ∧
      m.prepareStore [3, 4] = .ok (none, m') ∧
      m.t1.keys = [1, 2] ∧ m'.t1.keys = [2] ∧ m'.b1.keys = [1] ∧
      m.backend.getNumFreeBlocks = 0 ∧ m'.backend.getNumFreeBlocks = 1 ∧ m'.events = m.events :=
  ⟨_, _, rfl, rfl, by decide⟩

/-- After a call that succeeds all hashes of its list are stored, and none was evicted, exactly if
none was among the blocks that had to make room. -/
theorem prepareStore_keeps_listed :
    (∀ (m m' : LRUOffloadingManager K) (blockHashes : List K) (output : PrepareStoreOutput K),
      m.prepareStore blockHashes = .ok (some output, m') →
      ((∀ h ∈ blockHashes, h ∈ m'.blocks.keys ∧ h ∉ output.blockHashesEvicted) ↔
        ∀ h ∈ blockHashes, h ∉ m.victims blockHashes)) ∧
    ∀ (m m' : ARCOffloadingManager K) (blockHashes : List K) (output : PrepareStoreOutput K),
      m.prepareStore blockHashes = .ok (some output, m') →
      ((∀ h ∈ blockHashes, m'.Holds h ∧ h ∉ output.blockHashesEvicted) ↔
        ∀ h ∈ blockHashes, h ∉ m.victims (m.numBlocksToEvict blockHashes)) := by
  constructor
  · intro m m' blockHashes output stores
    have evicted := (LRUOffloadingManager.prepareStore_eq_some stores).1
    have keeps := LRUOffloadingManager.prepareStore_stored stores
    rw [evicted] at keeps ⊢
    exact forall₂_congr fun h listed => ⟨And.right, fun kept => ⟨keeps h listed kept, kept⟩⟩
  · intro m m' blockHashes output stores
    obtain ⟨evicted, keeps⟩ := prepareStore_stored stores
    rw [evicted] at keeps ⊢
    exact forall₂_congr fun h listed => ⟨And.right, fun kept => ⟨keeps h listed kept, kept⟩⟩

/-- The listed block 2 is idle, but 1 is older and makes room. -/
theorem prepareStore_keeps_listed_older :
    let backend : CPUBackend := ⟨16, 2, 2, [], le_rfl⟩
    let blocks : Dict Nat BlockStatus := ⟨[(1, ⟨0, 0⟩), (2, ⟨0, 1⟩)], by decide⟩
    let lru : LRUOffloadingManager Nat := ⟨backend, blocks, none⟩
    let arc : ARCOffloadingManager Nat :=
      ⟨backend, 0, blocks, .empty, .empty, .empty, none, 2⟩
    (∃ output m', lru.prepareStore [2, 3] = .ok (some output, m') ∧
      output.blockHashesEvicted = [1] ∧
      ∀ h ∈ [2, 3], h ∈ m'.blocks.keys ∧ h ∉ output.blockHashesEvicted) ∧
    ∃ output m', arc.prepareStore [2, 3] = .ok (some output, m') ∧
      output.blockHashesEvicted = [1] ∧
      ∀ h ∈ [2, 3], m'.Holds h ∧ h ∉ output.blockHashesEvicted := by
  intro backend blocks lru arc
  exact ⟨⟨_, _, rfl, rfl,
      (prepareStore_keeps_listed.1 lru _ [2, 3] _ rfl).mpr (by decide +kernel)⟩,
    ⟨_, _, rfl, rfl,
      (prepareStore_keeps_listed.2 arc _ [2, 3] _ rfl).mpr (by decide +kernel)⟩⟩

/-- A full cache of two blocks: storing the first again together with a new one evicts it. -/
theorem listed_block_evicted :
    (∃ m m' : LRUOffloadingManager Nat,
      (do
        let (_, m) ← (LRUOffloadingManager.init (.init 16 2) false).prepareStore [1, 2]
        m.completeStore [1, 2] true) = .ok m ∧
      m.prepareStore [1, 3] = .ok (some ⟨[3], [0], [1]⟩, m') ∧ m'.blocks.keys = [2, 3]) ∧
    ∃ m m' : ARCOffloadingManager Nat,
      (do
        let (_, m) ← (init (.init 16 2) false).prepareStore [1, 2]
        return m.completeStore [1, 2] true) = .ok m ∧
      m.prepareStore [1, 3] = .ok (some ⟨[3], [0], [1]⟩, m') ∧
      m'.t1.keys = [2, 3] ∧ m'.t2.keys = [] :=
  ⟨⟨_, _, rfl, rfl, by decide⟩, ⟨_, _, rfl, rfl, by decide⟩⟩

end Kalypso.Engine
