import Kalypso.Lib.Dict
import Kalypso.Lib.Trace
import Mathlib.Algebra.Order.Ring.Rat
import Mathlib.Data.Finset.Basic
import Mathlib.Tactic.Linarith

/-!
# The LRU cache

`LRUCache` extends the class of the same name of `cachetools` by pinned items and by `touch`, which
edits the recency order of the parent directly.  Inserting calls `popitem` until the value fits, and
`popitem` takes the first key of the order that is not pinned.  The loops get fuel; a call without a
result after any amount of it does not end.  The counters of hits are left out.
-/

set_option autoImplicit false

namespace Kalypso.Engine

open Lib

inductive CacheError
  | valueError
  | runtimeError
  | stopIteration
  deriving DecidableEq

structure SizeOf (V : Type) where
  size : V → ℚ
  nonneg : ∀ value, 0 ≤ size value

structure LRUCache (K V : Type) where
  maxsize : ℚ
  maxsize_nonneg : 0 ≤ maxsize
  getsizeof : SizeOf V
  data : Dict K V
  currsize : ℚ
  order : List K
  pinnedItems : Finset K

namespace LRUCache

variable {K V : Type} [DecidableEq K]

def init (maxsize : ℚ) (nonneg : 0 ≤ maxsize) (getsizeof : SizeOf V) : LRUCache K V :=
  ⟨maxsize, nonneg, getsizeof, .empty, 0, [], ∅⟩

section Model

variable (c : LRUCache K V) (key : K) (value : V)

/-- `move_to_end`, or a new entry at the end where the key is missing. -/
def touch : LRUCache K V := { c with order := c.order.erase key ++ [key] }

def get : LRUCache K V := if c.data.get? key = none then c else c.touch key

def pin : Option CacheError × LRUCache K V :=
  if c.data.get? key = none then (some .valueError, c)
  else (none, { c with pinnedItems := insert key c.pinnedItems })

/-- A key that is not stored is left in the order. -/
def pop : LRUCache K V :=
  match c.data.get? key with
  | none => c
  | some value =>
      { c with
        data := c.data.erase key
        currsize := c.currsize - c.getsizeof.size value
        order := c.order.erase key
        pinnedItems := c.pinnedItems.erase key }

def popitem (removePinned : Bool) : Except CacheError (K × LRUCache K V) :=
  if removePinned then
    match c.order with
    | [] => .error .stopIteration
    | key :: _ => .ok (key, c.pop key)
  else
    match c.order.find? (· ∉ c.pinnedItems) with
    | none => .error .runtimeError
    | some key => .ok (key, c.pop key)

/-- The loop of `cachetools` that makes room, with the keys it pops. -/
def makeRoom (size : ℚ) :
    Nat → LRUCache K V → Option (List K × Option CacheError × LRUCache K V)
  | 0, _ => none
  | fuel + 1, c =>
      if c.maxsize < c.currsize + size then
        match c.popitem false with
        | .error error => some ([], some error, c)
        | .ok (key, c) =>
            (makeRoom size fuel c).map fun (popped, result) => (key :: popped, result)
      else some ([], none, c)

def store : LRUCache K V :=
  touch { c with
    data := c.data.set key value
    currsize := c.currsize +
      (c.getsizeof.size value - ((c.data.get? key).map c.getsizeof.size).getD 0) } key

def put (fuel : Nat) : Option (List K × Option CacheError × LRUCache K V) :=
  if c.maxsize < c.getsizeof.size value then some ([], some .valueError, c)
  else if (c.data.get? key).any fun old => c.getsizeof.size value ≤ c.getsizeof.size old then
    some ([], none, c.store key value)
  else
    (c.makeRoom (c.getsizeof.size value) fuel).map fun
      | (popped, none, c) => (popped, none, c.store key value)
      | raised => raised

def clear : Nat → LRUCache K V → Option (Option CacheError × LRUCache K V)
  | 0, _ => none
  | fuel + 1, c =>
      if c.data.entries = [] then some (none, c)
      else
        match c.popitem true with
        | .error error => some (some error, c)
        | .ok (_, c) => clear fuel c

end Model

inductive Op (K V : Type)
  | put (key : K) (value : V)
  | get (key : K)
  | touch (key : K)
  | pin (key : K)
  | pop (key : K)
  | popitem (removePinned : Bool)
  | clear

/-- The exception that is raised, if any, and the cache after the call. -/
def exec (fuel : Nat) (c : LRUCache K V) : Op K V → Option (Option CacheError × LRUCache K V)
  | .put key value => (c.put key value fuel).map Prod.snd
  | .get key => some (none, c.get key)
  | .touch key => some (none, c.touch key)
  | .pin key => some (c.pin key)
  | .pop key => some (none, c.pop key)
  | .popitem removePinned =>
      match c.popitem removePinned with
      | .error error => some (some error, c)
      | .ok (_, c) => some (none, c)
  | .clear => c.clear fuel

def Step (c : LRUCache K V) (op : Op K V) (c' : LRUCache K V) : Prop :=
  ∃ fuel raised, c.exec fuel op = some (raised, c')

/-- A step that touches no key that is not stored. -/
def StoredStep (c : LRUCache K V) (op : Op K V) (c' : LRUCache K V) : Prop :=
  c.Step op c' ∧ ∀ key, op = .touch key → key ∈ c.data.keys

def total (c : LRUCache K V) : ℚ := (c.data.entries.map fun entry => c.getsizeof.size entry.2).sum

/-! ## What the operations keep -/

structure Tidy (c : LRUCache K V) : Prop where
  order : c.order.Perm c.data.keys
  size : c.currsize = c.total
  fits : c.currsize ≤ c.maxsize

variable {c c' : LRUCache K V} {key : K} {value : V}

theorem Tidy.touch (tidy : c.Tidy) (stored : key ∈ c.data.keys) : (c.touch key).Tidy := by
  refine ⟨?_, tidy.size, tidy.fits⟩
  have inOrder := tidy.order.mem_iff.mpr stored
  exact (List.perm_append_singleton key _).trans
    ((List.perm_cons_erase inOrder).symm.trans tidy.order)

theorem Tidy.pop (tidy : c.Tidy) : (c.pop key).Tidy := by
  unfold LRUCache.pop
  split
  · exact tidy
  · rename_i value found
    have size := Dict.sum_erase_present (fun entry => c.getsizeof.size entry.2) c.data found
    have isTotal := tidy.size
    have fits := tidy.fits
    have nonneg := c.getsizeof.nonneg value
    unfold total at isTotal
    refine ⟨?_, ?_, ?_⟩
    · rw [Dict.keys_erase]
      exact tidy.order.erase key
    · dsimp only [total]
      linarith
    · dsimp only
      linarith

/-- What `popitem` takes is stored, so one item fewer is left. -/
theorem Tidy.popitem {removePinned : Bool} (tidy : c.Tidy)
    (pops : c.popitem removePinned = .ok (key, c')) :
    c' = c.pop key ∧ (∃ value, c.data.get? key = some value) ∧
      c'.data.entries.length + 1 = c.data.entries.length ∧
      (removePinned = false → c.order.find? (· ∉ c.pinnedItems) = some key) := by
  obtain ⟨rfl, inOrder, first⟩ : c' = c.pop key ∧ key ∈ c.order ∧
      (removePinned = false → c.order.find? (· ∉ c.pinnedItems) = some key) := by
    unfold LRUCache.popitem at pops
    split at pops
    · rename_i isPinned
      split at pops
      · cases pops
      · rename_i isOrder
        cases pops
        exact ⟨rfl, isOrder ▸ List.mem_cons_self, fun unpinned => by simp [isPinned] at unpinned⟩
    · split at pops
      · cases pops
      · rename_i found
        cases pops
        exact ⟨rfl, List.mem_of_find?_eq_some found, fun _ => found⟩
  have stored := tidy.order.mem_iff.mp inOrder
  obtain ⟨value, found⟩ := Option.ne_none_iff_exists'.mp
    fun none => (Dict.get?_eq_none_iff _ _).mp none stored
  refine ⟨rfl, ⟨value, found⟩, ?_, first⟩
  simp only [LRUCache.pop, found]
  exact Dict.length_erase c.data stored

theorem Tidy.store (tidy : c.Tidy)
    (room : c.currsize + c.getsizeof.size value ≤ c.maxsize ∨
      ∃ old, c.data.get? key = some old ∧ c.getsizeof.size value ≤ c.getsizeof.size old) :
    (c.store key value).Tidy := by
  have isTotal := tidy.size
  have fits := tidy.fits
  unfold total at isTotal
  cases found : c.data.get? key with
  | none =>
    have absent := (Dict.get?_eq_none_iff _ _).mp found
    have size := Dict.sum_set_new (fun entry => c.getsizeof.size entry.2) c.data value found
    refine ⟨?_, ?_, ?_⟩
    · dsimp only [LRUCache.store, LRUCache.touch]
      rw [Dict.keys_set_new _ _ absent,
        List.erase_of_not_mem fun member => absent (tidy.order.mem_iff.mp member)]
      exact tidy.order.append_right [key]
    · simp only [LRUCache.store, LRUCache.touch, total, found, Option.map_none, Option.getD_none]
      linarith
    · simp only [LRUCache.store, LRUCache.touch, found, Option.map_none, Option.getD_none]
      rcases room with room | ⟨old, isOld, -⟩
      · linarith
      · cases found.symm.trans isOld
  | some old =>
    have size := Dict.sum_set_present (fun entry => c.getsizeof.size entry.2) c.data value found
    have nonneg := c.getsizeof.nonneg old
    refine ⟨?_, ?_, ?_⟩
    · have keys : (c.data.set key value).keys = c.data.keys := by
        rw [Dict.set_present _ _ found, Dict.keys_mapValues]
      exact keys ▸ (tidy.touch (Dict.mem_keys_of_get? _ found)).order
    · simp only [LRUCache.store, LRUCache.touch, total, found, Option.map_some, Option.getD_some]
      linarith
    · simp only [LRUCache.store, LRUCache.touch, found, Option.map_some, Option.getD_some]
      rcases room with room | ⟨_, isOld, smaller⟩
      · linarith
      · cases found.symm.trans isOld
        linarith

theorem filter_of_find? {p : K → Bool} {order : List K} (found : order.find? p = some key) :
    order.filter p = key :: (order.erase key).filter p := by
  obtain ⟨holds, before, after, rfl, earlier⟩ := List.find?_eq_some_iff_append.mp found
  have notBefore : key ∉ before := fun member => by simpa [holds] using earlier key member
  have none : before.filter p = [] := List.filter_eq_nil_iff.mpr (by simpa using earlier)
  rw [List.erase_append_right _ notBefore, List.erase_cons_head, List.filter_append,
    List.filter_append, none, List.filter_cons_of_pos holds, List.nil_append, List.nil_append]

/-- The keys that are popped to make room are the first of the order that are not pinned. -/
theorem Tidy.makeRoom {size : ℚ} {fuel : Nat} {popped : List K} {raised : Option CacheError}
    (tidy : c.Tidy) (makes : c.makeRoom size fuel = some (popped, raised, c')) :
    c'.Tidy ∧ popped <+: c.order.filter (· ∉ c.pinnedItems) ∧ c'.getsizeof = c.getsizeof ∧
      (raised = none → c'.currsize + size ≤ c'.maxsize) := by
  induction fuel generalizing c popped with
  | zero => cases makes
  | succ fuel ih =>
    rw [LRUCache.makeRoom] at makes
    split at makes
    · split at makes
      · cases makes
        exact ⟨tidy, List.nil_prefix, rfl, nofun⟩
      · rename_i key next pops
        obtain ⟨⟨rest, _, _⟩, later, isResult⟩ := Option.map_eq_some_iff.mp makes
        cases isResult
        obtain ⟨rfl, ⟨value, stored⟩, -, first⟩ := tidy.popitem pops
        have found := first rfl
        have unpinned : key ∉ c.pinnedItems := by simpa using List.find?_some found
        obtain ⟨tidy', isPrefix, same, fits⟩ := ih tidy.pop later
        simp only [LRUCache.pop, stored, Finset.erase_eq_of_notMem unpinned] at isPrefix same
        rw [filter_of_find? found]
        exact ⟨tidy', List.cons_prefix_cons.mpr ⟨rfl, isPrefix⟩, same, fits⟩
    · rename_i enough
      cases makes
      exact ⟨tidy, List.nil_prefix, rfl, fun _ => not_lt.mp enough⟩

theorem Tidy.put {fuel : Nat} {popped : List K} {raised : Option CacheError} (tidy : c.Tidy)
    (puts : c.put key value fuel = some (popped, raised, c')) :
    c'.Tidy ∧ popped <+: c.order.filter (· ∉ c.pinnedItems) := by
  unfold LRUCache.put at puts
  split at puts
  · cases puts
    exact ⟨tidy, List.nil_prefix⟩
  · split at puts
    · rename_i smaller
      cases puts
      simp only [Option.any_eq_true] at smaller
      obtain ⟨old, isOld, smaller⟩ := smaller
      exact ⟨tidy.store (.inr ⟨old, isOld, of_decide_eq_true smaller⟩), List.nil_prefix⟩
    · obtain ⟨⟨keys, failed, next⟩, makes, isResult⟩ := Option.map_eq_some_iff.mp puts
      obtain ⟨tidy', isPrefix, same, fits⟩ := tidy.makeRoom makes
      cases failed with
      | none =>
        cases isResult
        exact ⟨tidy'.store (.inl (same ▸ fits rfl)), isPrefix⟩
      | some error =>
        cases isResult
        exact ⟨tidy', isPrefix⟩

theorem Tidy.clear {fuel : Nat} {raised : Option CacheError} (tidy : c.Tidy)
    (clears : c.clear fuel = some (raised, c')) : c'.Tidy := by
  induction fuel generalizing c with
  | zero => cases clears
  | succ fuel ih =>
    rw [LRUCache.clear] at clears
    split at clears
    · cases clears
      exact tidy
    · split at clears
      · cases clears
        exact tidy
      · rename_i pops
        obtain ⟨rfl, -⟩ := tidy.popitem pops
        exact ih tidy.pop clears

theorem StoredStep.tidy {op : Op K V} (step : c.StoredStep op c') (tidy : c.Tidy) : c'.Tidy := by
  obtain ⟨⟨fuel, raised, executes⟩, touches⟩ := step
  cases op with
  | put key value =>
    obtain ⟨⟨popped, _, _⟩, puts, isResult⟩ := Option.map_eq_some_iff.mp executes
    cases isResult
    exact (tidy.put puts).1
  | get key =>
    cases executes
    unfold LRUCache.get
    split
    · exact tidy
    · rename_i stored
      exact tidy.touch (not_not.mp ((Dict.get?_eq_none_iff _ _).not.mp stored))
  | touch key =>
    cases executes
    exact tidy.touch (touches key rfl)
  | pin key =>
    simp only [LRUCache.exec, LRUCache.pin] at executes
    split at executes
    · cases executes
      exact tidy
    · cases executes
      exact ⟨tidy.order, tidy.size, tidy.fits⟩
  | pop key =>
    cases executes
    exact tidy.pop
  | popitem removePinned =>
    simp only [LRUCache.exec] at executes
    split at executes
    · cases executes
      exact tidy
    · rename_i pops
      cases executes
      obtain ⟨rfl, -⟩ := tidy.popitem pops
      exact tidy.pop
  | clear => exact tidy.clear executes

/-! ## Calls that return -/

theorem Tidy.makeRoom_returns {size : ℚ} {fuel : Nat} (tidy : c.Tidy)
    (enough : c.data.entries.length < fuel) : (c.makeRoom size fuel).isSome = true := by
  induction fuel generalizing c with
  | zero => exact absurd enough (Nat.not_lt_zero _)
  | succ fuel ih =>
    rw [LRUCache.makeRoom]
    split
    · split
      · rfl
      · rename_i pops
        obtain ⟨rfl, -, fewer, -⟩ := tidy.popitem pops
        rw [Option.isSome_map]
        exact ih tidy.pop (by omega)
    · rfl

theorem Tidy.clear_returns {fuel : Nat} (tidy : c.Tidy)
    (enough : c.data.entries.length < fuel) : (c.clear fuel).isSome = true := by
  induction fuel generalizing c with
  | zero => exact absurd enough (Nat.not_lt_zero _)
  | succ fuel ih =>
    rw [LRUCache.clear]
    split
    · rfl
    · split
      · rfl
      · rename_i pops
        obtain ⟨rfl, -, fewer, -⟩ := tidy.popitem pops
        exact ih tidy.pop (by omega)

theorem Tidy.exec_returns (tidy : c.Tidy) (op : Op K V) :
    (c.exec (c.data.entries.length + 1) op).isSome = true := by
  have enough := Nat.lt_succ_self c.data.entries.length
  cases op with
  | put key value =>
    simp only [LRUCache.exec, Option.isSome_map, LRUCache.put]
    split
    · rfl
    · split
      · rfl
      · rw [Option.isSome_map]
        exact tidy.makeRoom_returns enough
  | popitem removePinned =>
    simp only [LRUCache.exec]
    split <;> rfl
  | clear => exact tidy.clear_returns enough
  | _ => rfl

/-- In every state of a run that touches stored keys only: every call returns or raises, the order
holds exactly the stored keys, the items fit, and `put` evicts the items used longest ago among
those that are not pinned. -/
theorem cache_sound {maxsize : ℚ} {nonneg : 0 ≤ maxsize} {getsizeof : SizeOf V}
    {ops : List (Op K V)} (run : Trace StoredStep (init maxsize nonneg getsizeof) ops c) :
    (∀ op, ∃ fuel result, c.exec fuel op = some result) ∧
    c.order.Perm c.data.keys ∧ c.total ≤ c.maxsize ∧
    ∀ key value fuel popped raised c', c.put key value fuel = some (popped, raised, c') →
      popped <+: c.order.filter (· ∉ c.pinnedItems) := by
  have start : (init maxsize nonneg getsizeof : LRUCache K V).Tidy := ⟨.nil, rfl, nonneg⟩
  have tidy := run.invariant (fun _ _ _ step held => StoredStep.tidy step held) start
  exact ⟨fun op => ⟨_, Option.isSome_iff_exists.mp (tidy.exec_returns op)⟩, tidy.order,
    tidy.size ▸ tidy.fits, fun _ _ _ _ _ _ puts => (tidy.put puts).2⟩

def one : SizeOf Unit := ⟨fun _ => 1, fun _ => zero_le_one⟩

theorem put_of_room {fuel : Nat} (absent : c.data.get? key = none)
    (small : c.getsizeof.size value ≤ c.maxsize)
    (room : c.currsize + c.getsizeof.size value ≤ c.maxsize) :
    c.put key value (fuel + 1) = some ([], none, c.store key value) := by
  simp [LRUCache.put, LRUCache.makeRoom, absent, not_lt.mpr small, not_lt.mpr room]

/-- The first item is pinned, so that the second one makes room for the third. -/
def evictingOps : List (Op Nat Unit) := [.put 1 (), .pin 1, .put 2 (), .put 3 ()]

theorem cache_sound_evicted :
    ∃ c, Trace StoredStep (init 2 zero_le_two one) evictingOps c ∧ c.data.keys = [1, 3] ∧
      1 ∈ c.pinnedItems ∧ c.order.Perm c.data.keys := by
  have runs : ∃ c, evictingOps.foldlM (fun c op => (exec 3 c op).map Prod.snd)
      (init 2 zero_le_two one) = some c ∧ c.data.keys = [1, 3] ∧ 1 ∈ c.pinnedItems := by
    decide +kernel
  obtain ⟨c, runs, keys, pinned⟩ := runs
  have run : Trace StoredStep (init 2 zero_le_two one) evictingOps c := by
    refine (Trace.of_foldlM runs).mono_of (A := fun op => ∀ key, op ≠ .touch key)
      (by simp [evictingOps]) ?_
    intro c op c' untouched executes
    obtain ⟨⟨raised, _⟩, returns, rfl⟩ := Option.map_eq_some_iff.mp executes
    exact ⟨⟨3, raised, returns⟩, fun key same => absurd same (untouched key)⟩
  exact ⟨c, run, keys, pinned, (cache_sound run).2.1⟩

/-- A key that is touched and not stored stays first in the order: `popitem` takes it again and
again, and `put` does not end. -/
theorem put_never_ends :
    let c : LRUCache Nat Unit := ((init 1 zero_le_one one).touch 1).store 2 ()
    Trace Step (init 1 zero_le_one one) [.touch 1, .put 2 ()] c ∧
      1 ∈ c.order ∧ 1 ∉ c.data.keys ∧ ∀ fuel, c.exec fuel (.put 3 ()) = none := by
  intro c
  have puts : ((init 1 zero_le_one one : LRUCache Nat Unit).touch 1).put 2 () 1 =
      some ([], none, c) := put_of_room rfl le_rfl (zero_add _).le
  refine ⟨.cons ⟨0, none, rfl⟩ (.cons ⟨1, none, congrArg (Option.map Prod.snd) puts⟩ (.nil _)),
    by decide, by decide, fun fuel => ?_⟩
  have full : c.maxsize < c.currsize + 1 := by decide +kernel
  have stuck : c.makeRoom 1 fuel = none := by
    induction fuel with
    | zero => rfl
    | succ fuel ih =>
      have pops : c.popitem false = .ok (1, c) := rfl
      simp [LRUCache.makeRoom, full, pops, ih]
  have small : 1 ≤ c.maxsize := le_rfl
  have absent : c.data.get? 3 = none := rfl
  have size : c.getsizeof.size () = 1 := rfl
  simp [LRUCache.exec, LRUCache.put, small, absent, size, stuck]

end LRUCache

end Kalypso.Engine
