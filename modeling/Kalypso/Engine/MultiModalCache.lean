import Kalypso.Engine.LRUCache

/-!
# The caches of multimodal items

The front end and the engine each have an LRU cache of the same capacity.  The front end sends no
data for an item that it has stored.  What it stores is the metadata of the item, of which only the
size is read; the model has the item itself there.  The front end goes through the items of a
request modality by modality, the engine through those it gets by position.
-/

set_option autoImplicit false

namespace Kalypso.Engine

open Lib

inductive ItemError
  | expectedCachedItem
  | cache (error : CacheError)

structure MultiModalItem (K V : Type) where
  hash : K
  data : V
  offset : Nat

namespace LRUCache

variable {K V D : Type} [DecidableEq K]

def getAndUpdate (hit miss : V → D) (fuel : Nat) (c : LRUCache K V) (hash : K) (item : Option V) :
    Option (Except ItemError D × LRUCache K V) :=
  match c.data.get? hash, item with
  | some value, _ => some (.ok (hit value), c.get hash)
  | none, none => some (.error .expectedCachedItem, c)
  | none, some item =>
      (c.put hash item fuel).map fun
        | (_, none, c) => (.ok (miss item), c)
        | (_, some error, c) => (.error (.cache error), c)

/-- What the front end sends: nothing for an item that is stored. -/
def senderUpdate : Nat → LRUCache K V → K → Option V →
    Option (Except ItemError (Option V) × LRUCache K V) :=
  getAndUpdate (fun _ => none) some

def receiverUpdate :
    Nat → LRUCache K V → K → Option V → Option (Except ItemError V × LRUCache K V) :=
  getAndUpdate id id

/-- An exception leaves the items before it stored. -/
def updateAll (update : LRUCache K V → K → Option V → Option (Except ItemError D × LRUCache K V)) :
    LRUCache K V → List (K × Option V) → Option (Except ItemError (List D) × LRUCache K V)
  | c, [] => some (.ok [], c)
  | c, (hash, item) :: rest =>
      match update c hash item with
      | none => none
      | some (.error error, c) => some (.error error, c)
      | some (.ok data, c) =>
          (updateAll update c rest).map fun (result, c) => (result.map (data :: ·), c)

def touchAll (c : LRUCache K V) (hashes : List K) : LRUCache K V := hashes.foldl touch c

def mergeMmKwargs (fuel : Nat) (c : LRUCache K V) (items : List (MultiModalItem K V)) :
    Option (Except ItemError (List (Option V)) × LRUCache K V) :=
  updateAll (senderUpdate fuel) (c.touchAll (items.map (·.hash))) (items.map fun item =>
    (item.hash, if c.data.get? item.hash = none then some item.data else none))

def getAndUpdateFeatures (fuel : Nat) (c : LRUCache K V) (features : List (K × Option V)) :
    Option (Except ItemError (List V) × LRUCache K V) :=
  updateAll (receiverUpdate fuel) (c.touchAll (features.map Prod.fst)) features

end LRUCache

open LRUCache

variable {K V : Type} [DecidableEq K]

/-- The features of a request, sorted by position. -/
def mmFeatures (items : List (MultiModalItem K V)) (data : List (Option V)) : List (K × Option V) :=
  ((items.zip data).mergeSort fun a b => a.1.offset ≤ b.1.offset).map fun (item, data) =>
    (item.hash, data)

structure MultiModalCaches (K V : Type) where
  sender : LRUCache K V
  receiver : LRUCache K V
  queue : List (List (K × Option V))

inductive MultiModalOp (K V : Type)
  | request (items : List (MultiModalItem K V)) (accepted : Bool)
  | handle

namespace MultiModalCaches

def init (maxsize : ℚ) (nonneg : 0 ≤ maxsize) (size : SizeOf V) : MultiModalCaches K V :=
  ⟨.init maxsize nonneg size, .init maxsize nonneg size, []⟩

/-- Only a request that is preprocessed without an exception and then passes the validation is sent
to the engine. -/
def sent (items : List (MultiModalItem K V)) (accepted : Bool) :
    Except ItemError (List (Option V)) → List (List (K × Option V))
  | .ok data => if accepted then [mmFeatures items data] else []
  | .error _ => []

inductive Step (fuel : Nat) :
    MultiModalCaches K V → MultiModalOp K V → MultiModalCaches K V → Prop
  | request {s : MultiModalCaches K V} {items : List (MultiModalItem K V)} {accepted : Bool}
      {result : Except ItemError (List (Option V))} {sender : LRUCache K V} :
      s.sender.mergeMmKwargs fuel items = some (result, sender) →
      Step fuel s (.request items accepted)
        { s with sender := sender, queue := s.queue ++ sent items accepted result }
  | handle {s : MultiModalCaches K V} {features : List (K × Option V)}
      {rest : List (List (K × Option V))} {result : Except ItemError (List V)}
      {receiver : LRUCache K V} : s.queue = features :: rest →
      s.receiver.getAndUpdateFeatures fuel features = some (result, receiver) →
      Step fuel s .handle { s with receiver := receiver, queue := rest }

/-- Every request reaches the engine, and its modalities are not interleaved in the prompt. -/
def OrderedStep (fuel : Nat) (s : MultiModalCaches K V) (op : MultiModalOp K V)
    (s' : MultiModalCaches K V) : Prop :=
  Step fuel s op s' ∧ ∀ items accepted, op = .request items accepted →
    s'.queue ≠ s.queue ∧ items.Pairwise fun a b => a.offset ≤ b.offset

end MultiModalCaches

/-! ## The two caches stay alike -/

namespace LRUCache

variable {fuel : Nat} {c c' : LRUCache K V}

theorem receives_update {hash : K} {item data : Option V}
    (sends : senderUpdate fuel c hash item = some (.ok data, c')) :
    ∃ value, receiverUpdate fuel c hash data = some (.ok value, c') := by
  simp only [senderUpdate, getAndUpdate] at sends
  simp only [receiverUpdate, getAndUpdate]
  cases found : c.data.get? hash with
  | some stored =>
    rw [found] at sends
    cases sends
    exact ⟨stored, rfl⟩
  | none =>
    rw [found] at sends
    cases item with
    | none => cases sends
    | some item =>
      obtain ⟨⟨popped, raised, next⟩, puts, isResult⟩ := Option.map_eq_some_iff.mp sends
      cases raised with
      | some error => cases isResult
      | none =>
        cases isResult
        exact ⟨item, by simp [puts]⟩

theorem receives_updateAll {items : List (K × Option V)} {data : List (Option V)}
    (sends : c.updateAll (senderUpdate fuel) items = some (.ok data, c')) :
    data.length = items.length ∧ ∃ values,
      c.updateAll (receiverUpdate fuel) ((items.map Prod.fst).zip data) =
        some (.ok values, c') := by
  induction items generalizing c data with
  | nil =>
    cases sends
    exact ⟨rfl, [], rfl⟩
  | cons entry rest ih =>
    obtain ⟨hash, item⟩ := entry
    rw [updateAll] at sends
    split at sends
    · cases sends
    · cases sends
    · rename_i first next update
      obtain ⟨⟨result, last⟩, later, isResult⟩ := Option.map_eq_some_iff.mp sends
      cases result with
      | error error => cases isResult
      | ok others =>
        cases isResult
        obtain ⟨value, received⟩ := receives_update update
        obtain ⟨sameLength, values, receivedLater⟩ := ih later
        refine ⟨congrArg (· + 1) sameLength, value :: values, ?_⟩
        simp only [List.map_cons, List.zip_cons_cons, updateAll, received, receivedLater]
        rfl

end LRUCache

namespace MultiModalCaches

variable {fuel : Nat} {s s' : MultiModalCaches K V}

/-- Once the engine has handled what is on its way, its cache is that of the front end. -/
def Follows (fuel : Nat) (sender : LRUCache K V) : LRUCache K V → List (List (K × Option V)) → Prop
  | receiver, [] => receiver = sender
  | receiver, features :: rest => ∃ values next,
      receiver.getAndUpdateFeatures fuel features = some (.ok values, next) ∧
        Follows fuel sender next rest

theorem Follows.send {sender sender' receiver : LRUCache K V} {features : List (K × Option V)}
    {queue : List (List (K × Option V))} (follows : Follows fuel sender receiver queue)
    {values : List V}
    (handles : sender.getAndUpdateFeatures fuel features = some (.ok values, sender')) :
    Follows fuel sender' receiver (queue ++ [features]) := by
  induction queue generalizing receiver with
  | nil =>
    cases follows
    exact ⟨values, sender', handles, rfl⟩
  | cons first rest ih =>
    obtain ⟨values, next, handled, later⟩ := follows
    exact ⟨values, next, handled, ih later⟩

omit [DecidableEq K] in
theorem mmFeatures_ordered {items : List (MultiModalItem K V)} {data : List (Option V)}
    (sameLength : data.length = items.length)
    (ordered : items.Pairwise fun a b => a.offset ≤ b.offset) :
    mmFeatures items data = (items.map (·.hash)).zip data := by
  have whole : (items.zip data).map Prod.fst = items := List.map_fst_zip sameLength.ge
  rw [← whole, List.pairwise_map] at ordered
  rw [mmFeatures, List.mergeSort_of_pairwise (by simpa using ordered), List.zip_map_left]
  rfl

theorem OrderedStep.follows {op : MultiModalOp K V} (step : OrderedStep fuel s op s')
    (follows : Follows fuel s.sender s.receiver s.queue) :
    Follows fuel s'.sender s'.receiver s'.queue := by
  obtain ⟨step, condition⟩ := step
  cases step with
  | @request items accepted result sender merges =>
    obtain ⟨reaches, ordered⟩ := condition items accepted rfl
    cases result with
    | error error => simp [sent] at reaches
    | ok data =>
      cases accepted with
      | false => simp [sent] at reaches
      | true =>
        obtain ⟨sameLength, values, handles⟩ := receives_updateAll merges
        rw [List.map_map] at handles
        rw [List.length_map] at sameLength
        have received : s.sender.getAndUpdateFeatures fuel (mmFeatures items data) =
            some (.ok values, sender) := by
          rw [getAndUpdateFeatures, mmFeatures_ordered sameLength ordered,
            List.map_fst_zip (by rw [List.length_map, sameLength])]
          exact handles
        exact follows.send received
  | handle isQueue handles =>
    rw [isQueue] at follows
    obtain ⟨values, next, handled, later⟩ := follows
    cases handles.symm.trans handled
    exact later

end MultiModalCaches

end Kalypso.Engine
