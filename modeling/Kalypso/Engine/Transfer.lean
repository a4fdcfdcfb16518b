import Kalypso.Engine.Abort

/-!
# Pinned requests and KV transfers

Two things may keep the blocks of a finished request: its pin, and a connector that still sends
them.  `unpin_request` does not look at the transfer, and the report that the blocks have been
sent does not look at the pin.
-/

set_option autoImplicit false

namespace Kalypso.Engine

open Kalypso.Lib BlockPool

structure History where
  added : Bool := false
  /-- the blocks of a pinned request when it finished -/
  blocks : Option (List Nat) := none
  delayed : Bool := false
  sent : Bool := false
  unpinned : Bool := false

def History.Released (history : History) : Prop :=
  history.unpinned = true ∧ (history.delayed = true → history.sent = true)

def OwnIds {H : Type} (requests : Dict Nat (Request H)) : Prop :=
  ∀ id request, requests.get? id = some request → request.requestId = id

theorem OwnIds.set {H : Type} {requests : Dict Nat (Request H)} (own : OwnIds requests)
    (request : Request H) : OwnIds (requests.set request.requestId request) :=
  Dict.forall_set rfl own

theorem OwnIds.erase {H : Type} {requests : Dict Nat (Request H)} (own : OwnIds requests)
    (requestId : Nat) : OwnIds (requests.erase requestId) :=
  fun id other found => own id other (Dict.get?_of_erase found)

theorem Lifecycle.Step.ownIds {H : Type} [DecidableEq H] {hasher : Option (BlockHasher H)}
    {s s' : Lifecycle H} {op : LifecycleOp H} (step : Lifecycle.Step hasher s op s')
    (own : OwnIds s.requests) : OwnIds s'.requests := by
  cases step with
  | add | progress | finishPinned => exact own.set _
  | @preempt request =>
    exact own.set { request with
      status := .preempted
      numComputedTokens := 0
      numPreemptions := request.numPreemptions + 1 }
  | finish => exact own.erase _
  | allocate | pin | unpin => exact own

structure Transfers (H : Type) where
  life : Lifecycle H
  history : Nat → History

inductive TransferOp (H : Type) where
  | engine (op : LifecycleOp H)
  /-- the request is `request` from now on, which is finished, and the connector sends its blocks -/
  | finishDelayed (request : Request H)
  /-- the connector reports that the blocks have been sent -/
  | sent (requestId : Nat)
  /-- the connector has loaded the blocks of a waiting request, or has failed to -/
  | received (requestId : Nat)

def TransferOp.requestId {H : Type} : TransferOp H → Nat
  | .engine op => op.requestId
  | .finishDelayed request => request.requestId
  | .sent requestId | .received requestId => requestId

def LifecycleOp.IsRecorded {H : Type} : LifecycleOp H → Prop
  | .add _ | .finish _ | .unpin _ => True
  | .allocate _ | .progress _ | .preempt _ | .pin _ => False

open KVCacheManager

namespace Transfers

variable {H : Type} [DecidableEq H] {hasher : Option (BlockHasher H)} {config : KVCacheConfig}
  {s s' : Transfers H} {op : TransferOp H} {id : Nat}

def init (config : KVCacheConfig) : Transfers H := ⟨.init config, fun _ => {}⟩

/-- The blocks that a finished request leaves behind if it is pinned. -/
def leaves (s : Transfers H) (request : Request H) : Option (List Nat) :=
  if request.pinned then some (s.life.kv.getBlocks request.requestId).flatten else none

/-- The history of the request of an operation after the operation. -/
def recorded (s : Transfers H) (op : TransferOp H) : History :=
  let history := s.history op.requestId
  match op with
  | .engine (.add _) => { added := true }
  | .engine (.finish request) => { history with blocks := s.leaves request }
  | .engine (.unpin _) => { history with unpinned := true }
  | .engine _ => history
  | .finishDelayed request => { history with blocks := s.leaves request, delayed := true }
  | .sent _ => { history with sent := true }
  | .received _ => history

def afterwards (s : Transfers H) (op : TransferOp H) (life : Lifecycle H) : Transfers H :=
  ⟨life, Function.update s.history op.requestId (s.recorded op)⟩

/-- The steps.  Request ids are unique, and the connector reports the blocks of a request once, and
only if it has asked to delay freeing them. -/
inductive Step (hasher : Option (BlockHasher H)) : Transfers H → TransferOp H → Transfers H → Prop
  | engine {s : Transfers H} {op : LifecycleOp H} {life : Lifecycle H} :
      Lifecycle.Step hasher s.life op life →
      (∀ request, op = .add request → (s.history request.requestId).added = false) →
      Step hasher s (.engine op) (s.afterwards (.engine op) life)
  | finishDelayed {s : Transfers H} {old request : Request H} : s.life.Updates hasher old request →
      old.isFinished = false → request.isFinished = true →
      Step hasher s (.finishDelayed request) (s.afterwards (.finishDelayed request)
        { s.life with requests := s.life.requests.set request.requestId request })
  | sent {s : Transfers H} {request : Request H} {kv : KVCacheManager H} :
      (s.history request.requestId).delayed = true →
      (s.history request.requestId).sent = false →
      s.life.requests.get? request.requestId = some request →
      s.life.kv.free request.requestId = .ok kv →
      Step hasher s (.sent request.requestId) (s.afterwards (.sent request.requestId)
        ⟨kv, s.life.requests.erase request.requestId⟩)
  | received {s : Transfers H} {request : Request H} {numTokens : Int} {kv : KVCacheManager H} :
      s.life.requests.get? request.requestId = some request → request.isFinished = false →
      s.life.kv.cacheBlocks request numTokens = .ok kv ∨
        s.life.kv.free request.requestId = .ok kv →
      Step hasher s (.received request.requestId) (s.afterwards (.received request.requestId)
        { s.life with kv := kv })

/-- A pinned request that finishes with blocks has not been unpinned before, and the connector does
not send its blocks. -/
def KeptByPinOnly (s : Transfers H) : TransferOp H → Prop
  | .engine (.finish request) => request.pinned = true →
      (s.history request.requestId).unpinned = false ∨
        (s.life.kv.getBlocks request.requestId).flatten = []
  | .finishDelayed request => request.pinned = true →
      (s.life.kv.getBlocks request.requestId).flatten = []
  | _ => True

def PinningStep (hasher : Option (BlockHasher H)) (s : Transfers H) (op : TransferOp H)
    (s' : Transfers H) : Prop :=
  Step hasher s op s' ∧ s.KeptByPinOnly op

/-! ## One request -/

section

omit [DecidableEq H]

structure Tracked (s : Transfers H) (id : Nat) : Prop where
  fresh : (s.history id).added = false → s.life.requests.get? id = none
  absent : (s.history id).sent = true → s.life.requests.get? id = none
  waiting : (s.history id).delayed = true → (s.history id).sent = false →
    ∃ request, s.life.requests.get? id = some request ∧ request.isFinished = true
  finished : ∀ blocks, (s.history id).blocks = some blocks → (s.history id).sent = false →
    ∃ request, s.life.requests.get? id = some request ∧ request.isFinished = true
  notSent : ∀ blocks, (s.history id).blocks = some blocks → (s.history id).delayed = true →
    blocks = []
  retained : ∀ blocks, (s.history id).blocks = some blocks → ¬ (s.history id).Released →
    (s.life.kv.getBlocks id).flatten = blocks
  released : ∀ blocks, (s.history id).blocks = some blocks → (s.history id).Released →
    (s.life.kv.getBlocks id).flatten = []

theorem tracked_init (id : Nat) : (init config : Transfers H).Tracked id :=
  ⟨fun _ => rfl, nofun, nofun, nofun, nofun, nofun, nofun⟩

theorem Tracked.frame (tracked : s.Tracked id) (sameHistory : s'.history id = s.history id)
    (stays : s.life.requests.get? id = none → s'.life.requests.get? id = none)
    (finishedStays : ∀ old, s.life.requests.get? id = some old → old.isFinished = true →
      ∃ request, s'.life.requests.get? id = some request ∧ request.isFinished = true)
    (sameBlocks : s'.life.kv.getBlocks id = s.life.kv.getBlocks id) : s'.Tracked id := by
  refine ⟨?_, ?_, ?_, ?_, ?_, ?_, ?_⟩
  all_goals rw [sameHistory]
  · exact fun isFresh => stays (tracked.fresh isFresh)
  · exact fun isSent => stays (tracked.absent isSent)
  · intro isDelayed notSent
    obtain ⟨old, stored, finished⟩ := tracked.waiting isDelayed notSent
    exact finishedStays old stored finished
  · intro blocks isSome notSent
    obtain ⟨old, stored, finished⟩ := tracked.finished blocks isSome notSent
    exact finishedStays old stored finished
  · exact tracked.notSent
  · rw [sameBlocks]
    exact tracked.retained
  · rw [sameBlocks]
    exact tracked.released

theorem Tracked.of_live {history : History} (isHistory : s.history id = history)
    (isAdded : history.added = true) (noBlocks : history.blocks = none)
    (notDelayed : history.delayed = false) (notSent : history.sent = false) : s.Tracked id := by
  subst isHistory
  refine ⟨?_, ?_, ?_, ?_, ?_, ?_, ?_⟩
  · exact fun isFresh => nomatch isAdded.symm.trans isFresh
  · exact fun isSent => nomatch notSent.symm.trans isSent
  · exact fun isDelayed => nomatch notDelayed.symm.trans isDelayed
  all_goals exact fun blocks isSome => nomatch noBlocks.symm.trans isSome

/-- A stored request that is not finished has no history of being finished. -/
theorem Tracked.unfinished (tracked : s.Tracked id) {old : Request H}
    (stored : s.life.requests.get? id = some old) (notFinished : old.isFinished = false) :
    (s.history id).added = true ∧ (s.history id).blocks = none ∧
      (s.history id).delayed = false ∧ (s.history id).sent = false := by
  have notFound : s.life.requests.get? id ≠ none := by simp [stored]
  have notSent : (s.history id).sent = false :=
    Bool.eq_false_iff.mpr fun isSent => notFound (tracked.absent isSent)
  have notThere : ¬ ∃ request,
      s.life.requests.get? id = some request ∧ request.isFinished = true := by
    rintro ⟨request, found, finished⟩
    obtain rfl := Option.some.inj (stored.symm.trans found)
    cases notFinished.symm.trans finished
  refine ⟨Bool.eq_true_of_not_eq_false fun isFresh => notFound (tracked.fresh isFresh), ?_,
    ?_, notSent⟩
  · exact Option.eq_none_iff_forall_ne_some.mpr fun blocks isSome =>
      notThere (tracked.finished blocks isSome notSent)
  · exact Bool.eq_false_iff.mpr fun isDelayed => notThere (tracked.waiting isDelayed notSent)

theorem history_afterwards (s : Transfers H) (op : TransferOp H) (life : Lifecycle H) :
    (s.afterwards op life).history op.requestId = s.recorded op :=
  Function.update_self _ _ _

/-- A request that finishes is stored or dropped, and its blocks stay if it is pinned. -/
theorem Tracked.finishes {s' : Transfers H} {old request : Request H}
    (tracked : s.Tracked request.requestId)
    (stored : s.life.requests.get? request.requestId = some old)
    (notFinished : old.isFinished = false)
    {delayed : Bool}
    (recorded : s'.history request.requestId =
      { s.history request.requestId with blocks := s.leaves request, delayed := delayed })
    (stays : request.pinned = true ∨ delayed = true →
      s'.life = { s.life with requests := s.life.requests.set request.requestId request })
    (isFinished : request.isFinished = true)
    (kept : request.pinned = true →
      (s.history request.requestId).unpinned = false ∧ delayed = false ∨
        (s.life.kv.getBlocks request.requestId).flatten = []) : s'.Tracked request.requestId := by
  obtain ⟨isAdded, -, -, notSent⟩ := tracked.unfinished stored notFinished
  have there : request.pinned = true ∨ delayed = true →
      ∃ request', s'.life.requests.get? request.requestId = some request' ∧
        request'.isFinished = true := by
    intro either
    rw [stays either]
    exact ⟨request, Dict.get?_set_self _ _ _, isFinished⟩
  have isPinned : ∀ blocks, s.leaves request = some blocks → request.pinned = true ∧
      (s.life.kv.getBlocks request.requestId).flatten = blocks := by
    intro blocks isSome
    unfold leaves at isSome
    split at isSome
    · rename_i pinned
      exact ⟨pinned, Option.some.inj isSome⟩
    · cases isSome
  refine ⟨?_, ?_, ?_, ?_, ?_, ?_, ?_⟩
  all_goals rw [recorded]
  · exact fun isFresh => nomatch isAdded.symm.trans isFresh
  · exact fun isSent => nomatch notSent.symm.trans isSent
  · exact fun isDelayed _ => there (Or.inr isDelayed)
  · exact fun blocks isSome _ => there (Or.inl (isPinned blocks isSome).1)
  · intro blocks isSome isDelayed
    obtain ⟨pinned, rfl⟩ := isPinned blocks isSome
    rcases kept pinned with ⟨-, notDelayed⟩ | isEmpty
    · cases notDelayed.symm.trans isDelayed
    · exact isEmpty
  · intro blocks isSome _
    obtain ⟨pinned, rfl⟩ := isPinned blocks isSome
    rw [stays (Or.inl pinned)]
  · intro blocks isSome ⟨unpinned, _⟩
    obtain ⟨pinned, rfl⟩ := isPinned blocks isSome
    rw [stays (Or.inl pinned)]
    rcases kept pinned with ⟨notUnpinned, -⟩ | isEmpty
    · cases notUnpinned.symm.trans unpinned
    · exact isEmpty

/-- Only a request whose blocks are not sent holds blocks until it is unpinned. -/
theorem Tracked.unpins {s' : Transfers H} (tracked : s.Tracked id)
    (recorded : s'.history id = { s.history id with unpinned := true })
    (sameRequests : s'.life.requests = s.life.requests)
    (nothing : (s'.life.kv.getBlocks id).flatten = []) : s'.Tracked id := by
  refine ⟨?_, ?_, ?_, ?_, ?_, ?_, ?_⟩
  all_goals rw [recorded]
  · rw [sameRequests]
    exact tracked.fresh
  · rw [sameRequests]
    exact tracked.absent
  · rw [sameRequests]
    exact tracked.waiting
  · rw [sameRequests]
    exact tracked.finished
  · exact tracked.notSent
  · intro blocks isSome notReleased
    have isDelayed : (s.history id).delayed = true := by
      by_contra notDelayed
      exact notReleased ⟨rfl, fun isDelayed => absurd isDelayed notDelayed⟩
    rw [nothing, tracked.notSent blocks isSome isDelayed]
  · exact fun _ _ _ => nothing

theorem Tracked.sends {s' : Transfers H} (tracked : s.Tracked id)
    (recorded : s'.history id = { s.history id with sent := true })
    (isDelayed : (s.history id).delayed = true) (dropped : s'.life.requests.get? id = none)
    (nothing : (s'.life.kv.getBlocks id).flatten = []) : s'.Tracked id := by
  refine ⟨?_, ?_, ?_, ?_, ?_, ?_, ?_⟩
  all_goals rw [recorded]
  · exact fun _ => dropped
  · exact fun _ => dropped
  · exact fun _ notSent => nomatch notSent
  · exact fun _ _ notSent => nomatch notSent
  · exact tracked.notSent
  · exact fun blocks isSome _ => nothing.trans (tracked.notSent blocks isSome isDelayed).symm
  · exact fun _ _ _ => nothing

theorem flatten_eq_nil {m : KVCacheManager H} (nothing : ∀ b, ¬ m.Holds id b) :
    (m.getBlocks id).flatten = [] :=
  List.eq_nil_iff_forall_not_mem.mpr fun b member =>
    nothing b (holds_iff_mem_getBlocks.mpr member)

/-- `unpin_request` gives the blocks back unless another request holds them. -/
theorem unpinRequest_gives_back {m m' : KVCacheManager H} (ok : m.Ok)
    (unpins : m.unpinRequest id = .ok m') {b : Nat} (held : m.Holds id b)
    (notNull : b ≠ nullBlock) :
    b ∈ m'.blockPool.freeBlockQueue.blocks ∨ ∃ other, m'.Holds other b := by
  obtain ⟨effect, flags, -⟩ := (ok.unpinRequest id).ok unpins
  have inRange := ok.pool.held b (mem_holders_of_holds held)
  refine effect.ok.free_or_held notNull (effect.config.numGpuBlocks ▸ inRange) ?_
  exact Bool.eq_false_iff.mpr fun isPinned => (flags b isPinned).2 held

theorem released_congr {history history' : History}
    (sameUnpinned : history'.unpinned = history.unpinned)
    (sameDelayed : history'.delayed = history.delayed) (sameSent : history'.sent = history.sent) :
    history'.Released ↔ history.Released := by
  rw [History.Released, History.Released, sameUnpinned, sameDelayed, sameSent]

end

/-! ## Steps -/

section

variable (free : ∀ h ∈ hasher, h.CollisionFree)

theorem Step.history_of_ne (step : Step hasher s op s') (different : id ≠ op.requestId) :
    s'.history id = s.history id := by
  cases step with
  | engine | finishDelayed | sent | received => exact Function.update_of_ne different _ _

include free in
/-- Every step is an operation of the KV-cache manager on one request. -/
theorem Step.effect (step : Step hasher s op s') (ok : s.life.kv.Ok) :
    ∃ released, KVCacheManager.Effect op.requestId released s.life.kv s'.life.kv := by
  cases step with
  | engine step => exact ⟨_, step.effect free ok⟩
  | finishDelayed => exact ⟨[], .refl ok _ _⟩
  | @sent request _ _ _ _ freed => exact ⟨_, ((ok.free request.requestId).ok freed).1.1⟩
  | @received request numTokens kv _ _ changed =>
    rcases changed with cached | freed
    · unfold cacheBlocks at cached
      split at cached
      · exact ⟨_, (ok.cacheBlocks request numTokens).ok cached⟩
      · cases cached
        exact ⟨[], .refl ok _ _⟩
    · exact ⟨_, ((ok.free request.requestId).ok freed).1.1⟩

theorem Step.requests_of_ne (step : Step hasher s op s') (different : id ≠ op.requestId) :
    s'.life.requests.get? id = s.life.requests.get? id := by
  cases step with
  | engine step => exact step.requests_of_ne different
  | finishDelayed => exact Dict.get?_set_of_ne _ _ different
  | sent => exact Dict.get?_erase_of_ne _ different
  | received => rfl

include free in
theorem Tracked.step_of_ne (tracked : s.Tracked id) (ok : s.life.kv.Ok)
    (step : Step hasher s op s') (different : id ≠ op.requestId) : s'.Tracked id := by
  obtain ⟨released, effect⟩ := step.effect free ok
  have sameRequest := step.requests_of_ne different
  refine tracked.frame (step.history_of_ne different) (sameRequest.trans ·)
    (fun old stored finished => ?_) (getBlocks_of_frame different effect.frame)
  exact ⟨old, sameRequest.trans stored, finished⟩

include free in
theorem Tracked.unrecorded {op : LifecycleOp H} {life : Lifecycle H}
    (tracked : s.Tracked op.requestId)
    (ok : s.life.kv.Ok) (step : Lifecycle.Step hasher s.life op life)
    (unrecorded : ¬ op.IsRecorded) : (s.afterwards (.engine op) life).Tracked op.requestId := by
  have same : (s.afterwards (.engine op) life).history op.requestId = s.history op.requestId := by
    refine (history_afterwards s (.engine op) life).trans ?_
    cases op with
    | add | finish | unpin => exact absurd trivial unrecorded
    | allocate | progress | preempt | pin => rfl
  have notUnpinned : op ≠ .unpin op.requestId := by
    intro isUnpin
    rw [isUnpin] at unrecorded
    exact unrecorded trivial
  have notReplaced : ∀ request, op = .add request → request.requestId ≠ op.requestId := by
    rintro request rfl
    exact absurd trivial unrecorded
  cases found : s.life.requests.get? op.requestId with
  | none =>
    obtain ⟨absent, blocks⟩ := step.absent_stays free ok found notUnpinned notReplaced
    exact tracked.frame same (fun _ => absent)
      (fun _ stored => nomatch found.symm.trans stored) blocks
  | some old =>
    cases finished : old.isFinished with
    | true =>
      obtain ⟨⟨request, stays, isFinished, -⟩, blocks, -⟩ :=
        step.finished_stays free ok found finished notUnpinned notReplaced
      exact tracked.frame same (fun absent => nomatch found.symm.trans absent)
        (fun _ _ _ => ⟨request, stays, isFinished⟩) blocks
    | false =>
      obtain ⟨isAdded, noBlocks, notDelayed, notSent⟩ := tracked.unfinished found finished
      exact .of_live same isAdded noBlocks notDelayed notSent

include free in
theorem Tracked.step (tracked : ∀ id, s.Tracked id) (ok : s.life.kv.Ok)
    (step : PinningStep hasher s op s') (id : Nat) : s'.Tracked id := by
  obtain ⟨step, kept⟩ := step
  by_cases different : id = op.requestId
  · subst different
    have mine := tracked op.requestId
    cases step with
    | @engine op life step isFresh =>
      have recorded := history_afterwards s (.engine op) life
      by_cases isRecorded : op.IsRecorded
      · cases step with
        | add => exact .of_live recorded rfl rfl rfl rfl
        | allocate | progress | preempt | pin => exact isRecorded.elim
        | @finishPinned _ request updates unfinished finished pinned =>
          obtain ⟨-, -, notDelayed, -⟩ := mine.unfinished updates.stored unfinished
          refine mine.finishes updates.stored unfinished (recorded.trans ?_) (fun _ => rfl) finished
            fun pinned => (kept pinned).imp_left (⟨·, notDelayed⟩)
          rfl
        | @finish _ request _ updates unfinished finished unpinned =>
          obtain ⟨-, -, notDelayed, -⟩ := mine.unfinished updates.stored unfinished
          refine mine.finishes updates.stored unfinished (recorded.trans rfl) ?_ finished
            fun pinned => nomatch unpinned.symm.trans pinned
          rintro (pinned | isDelayed)
          · cases unpinned.symm.trans pinned
          · cases notDelayed.symm.trans isDelayed
        | unpin released =>
          exact mine.unpins recorded rfl (flatten_eq_nil ((ok.unpinRequest _).ok released).2.2)
      · exact mine.unrecorded free ok step isRecorded
    | @finishDelayed _ request updates unfinished finished =>
      exact mine.finishes updates.stored unfinished
        (history_afterwards s (.finishDelayed request) _)
        (fun _ => rfl) finished fun pinned => Or.inr (kept pinned)
    | @sent request _ isDelayed _ _ freed =>
      exact mine.sends (history_afterwards s (.sent request.requestId) _) isDelayed
        (Dict.get?_erase_self _ _) (flatten_eq_nil ((ok.free request.requestId).ok freed).2)
    | @received request _ _ stored unfinished =>
      obtain ⟨isAdded, noBlocks, notDelayed, notSent⟩ := mine.unfinished stored unfinished
      exact .of_live (history_afterwards s (.received request.requestId) _) isAdded noBlocks
        notDelayed notSent
  · exact (tracked id).step_of_ne free ok step different

theorem Step.ownIds (step : Step hasher s op s') (own : OwnIds s.life.requests) :
    OwnIds s'.life.requests := by
  cases step with
  | engine step => exact step.ownIds own
  | finishDelayed => exact own.set _
  | sent => exact own.erase _
  | received => exact own

structure Inv (s : Transfers H) : Prop where
  ok : s.life.kv.Ok
  own : OwnIds s.life.requests
  tracked : ∀ id, s.Tracked id

include free in
theorem Inv.step (inv : s.Inv) (step : PinningStep hasher s op s') : s'.Inv := by
  obtain ⟨_, effect⟩ := step.1.effect free inv.ok
  exact ⟨effect.ok, step.1.ownIds inv.own, Tracked.step free inv.tracked inv.ok step⟩

include free in
theorem inv_of_trace {ops : List (TransferOp H)}
    (run : Trace (PinningStep hasher) (init config) ops s) : s.Inv :=
  run.invariant (fun _ _ _ step held => held.step free step)
    ⟨init_ok config, fun _ _ found => (nomatch found), tracked_init⟩

theorem gives_back (tracked : ∀ id, s.Tracked id) (ok : s.life.kv.Ok)
    (step : Step hasher s op s') {blocks : List Nat}
    (left : (s'.history id).blocks = some blocks) (notBefore : ¬ (s.history id).Released)
    (now : (s'.history id).Released) {b : Nat} (member : b ∈ blocks) (notNull : b ≠ nullBlock) :
    b ∈ s'.life.kv.blockPool.freeBlockQueue.blocks ∨ ∃ other, s'.life.kv.Holds other b := by
  by_cases different : id = op.requestId
  · subst different
    cases step with
    | @engine op life step isFresh =>
      rw [history_afterwards] at left now
      cases step with
      | @unpin requestId kv released =>
        have held := (tracked requestId).retained blocks left notBefore
        rw [← held] at member
        exact unpinRequest_gives_back ok released
          (holds_iff_mem_getBlocks.mpr member) notNull
      | add => cases left
      | allocate | progress | preempt | pin => exact absurd now notBefore
      | finishPinned | finish => exact absurd ((released_congr rfl rfl rfl).mp now) notBefore
    | finishDelayed =>
      rw [history_afterwards] at now
      exact absurd ⟨now.1, fun _ => now.2 rfl⟩ notBefore
    | @sent request _ isDelayed =>
      rw [history_afterwards] at left
      have isEmpty := (tracked request.requestId).notSent blocks left isDelayed
      rw [isEmpty] at member
      exact absurd member List.not_mem_nil
    | received =>
      rw [history_afterwards] at now
      exact absurd now notBefore
  · rw [step.history_of_ne different] at now
    exact absurd now notBefore

end

end Transfers

/-! ## The scheduler -/

theorem SingleTypeKVCacheManager.forEachManager_free_returns {H : Type} (requestId : Nat)
    (managers : List SingleTypeKVCacheManager) :
    ∀ pool : BlockPool H,
      ∃ result, forEachManager (SingleTypeKVCacheManager.free requestId) pool managers =
        .ok result := by
  induction managers with
  | nil => exact fun pool => ⟨_, rfl⟩
  | cons manager rest ih =>
    intro pool
    obtain ⟨result, returns⟩ := ih (pool.freeBlocks (manager.table requestId).reverse)
    exact ⟨_, bind_eq_ok.mpr ⟨_, rfl, bind_eq_ok.mpr ⟨result, returns, rfl⟩⟩⟩

theorem KVCacheManager.free_returns {H : Type} (requestId : Nat) (m : KVCacheManager H) :
    ∃ m', m.free requestId = .ok m' := by
  obtain ⟨result, returns⟩ := SingleTypeKVCacheManager.forEachManager_free_returns requestId
    m.singleTypeManagers m.blockPool
  exact ⟨_, bind_eq_ok.mpr ⟨result, returns, rfl⟩⟩

namespace Scheduler

variable {H E : Type} {hasher : Option (BlockHasher H)} {s s' : Scheduler H E} {request : Request H}

theorem freeBlocks_returns (finished : request.isFinished = true)
    (stored : s.requests.get? request.requestId = some request) :
    ∃ kv, s.kv.free request.requestId = .ok kv ∧ s.freeBlocks request =
      .ok { s with kv := kv, requests := s.requests.erase request.requestId } := by
  obtain ⟨kv, frees⟩ := s.kv.free_returns request.requestId
  refine ⟨kv, frees, ?_⟩
  simp [freeBlocks, finished, frees, stored, bind, Except.bind]
  rfl

theorem finishedSendings_return (sending : List Nat) :
    ∀ s : Scheduler H E, sending.Nodup →
      OwnIds s.requests →
      (∀ id ∈ sending, ∃ request, s.requests.get? id = some request ∧ request.isFinished = true) →
        ∃ s', sending.foldlM finishedSending s = .ok s' := by
  induction sending with
  | nil => exact fun s _ _ _ => ⟨s, rfl⟩
  | cons sent rest ih =>
    intro s nodup own stored
    obtain ⟨notLater, nodupRest⟩ := List.nodup_cons.mp nodup
    obtain ⟨request, found, finished⟩ := stored sent List.mem_cons_self
    obtain rfl := own sent request found
    obtain ⟨kv, -, frees⟩ := freeBlocks_returns finished found
    have sends : s.finishedSending request.requestId =
        .ok { s with kv := kv, requests := s.requests.erase request.requestId } := by
      rw [finishedSending, found]
      exact frees
    rw [List.foldlM_cons, sends]
    refine ih _ nodupRest (own.erase _) fun id later => ?_
    have different : id ≠ request.requestId := fun same => notLater (same ▸ later)
    obtain ⟨other, isStored, isFinished⟩ := stored id (List.mem_cons_of_mem _ later)
    exact ⟨other, (Dict.get?_erase_of_ne _ different).trans isStored, isFinished⟩

end Scheduler

namespace Transfers

variable {H E : Type} [DecidableEq H] {hasher : Option (BlockHasher H)} {config : KVCacheConfig}
  {s s' : Transfers H} {op : TransferOp H} {id : Nat}

/-- If pinned requests with blocks are not unpinned before they finish, and the connector does not
send their blocks, then the blocks are kept until nothing keeps them any more, they are then given
back, and the reports of the connector do not raise. -/
theorem released_after_unpin (free : ∀ h ∈ hasher, h.CollisionFree) {ops : List (TransferOp H)}
    (run : Trace (PinningStep hasher) (init config) ops s) (step : PinningStep hasher s op s') :
    (∀ id blocks, (s'.history id).blocks = some blocks →
      (¬ (s'.history id).Released → (s'.life.kv.getBlocks id).flatten = blocks) ∧
      ((s'.history id).Released → ∀ b, ¬ s'.life.kv.Holds id b) ∧
      (¬ (s.history id).Released → (s'.history id).Released → ∀ b ∈ blocks, b ≠ nullBlock →
        b ∈ s'.life.kv.blockPool.freeBlockQueue.blocks ∨ ∃ other, s'.life.kv.Holds other b)) ∧
    ∀ (scheduler : Scheduler H E) (recving sending : List Nat), scheduler.queues.life = s'.life →
      sending.Nodup →
      (∀ id ∈ sending, (s'.history id).delayed = true ∧ (s'.history id).sent = false) →
        ∃ after, scheduler.updateFromKvXferFinished recving sending = .ok after := by
  have before := inv_of_trace free run
  have after := before.step free step
  refine ⟨fun id blocks left => ⟨?_, fun released b holds => ?_, ?_⟩, ?_⟩
  · exact (after.tracked id).retained blocks left
  · rw [holds_iff_mem_getBlocks, (after.tracked id).released blocks left released]
      at holds
    exact absurd holds List.not_mem_nil
  · exact fun notBefore now b member notNull =>
      gives_back before.tracked before.ok step.1 left notBefore now member notNull
  · intro scheduler recving sending same nodup reported
    have sameRequests : scheduler.requests = s'.life.requests := congrArg Lifecycle.requests same
    refine Scheduler.finishedSendings_return sending _ nodup ?_ fun id member => ?_
    · exact (sameRequests ▸ after.own : OwnIds scheduler.requests)
    · obtain ⟨isDelayed, notSent⟩ := reported id member
      obtain ⟨request, stored, finished⟩ := (after.tracked id).waiting isDelayed notSent
      exact ⟨request, (congrArg (Dict.get? · id) sameRequests).trans stored, finished⟩

/-! ### The functions of the scheduler are steps -/

def finishOp (connector : Option (KVConnector H)) (request : Request H) (blocks : List (List Nat)) :
    TransferOp H :=
  if Scheduler.delaysFree connector request blocks then .finishDelayed request
  else .engine (.finish request)

variable {s s' : Scheduler H E} (history : Nat → History) {old request : Request H}
  {encoders : EncoderCacheManager H E}

theorem freeRequest_step (connector : Option (KVConnector H))
    (updates : s.queues.life.Updates hasher old request) (unfinished : old.isFinished = false)
    (finished : request.isFinished = true) :
    Gives
      (fun (_, s') => ∃ history',
        Step hasher ⟨s.queues.life, history⟩
          (finishOp connector request (s.kv.getBlocks request.requestId))
            ⟨s'.queues.life, history'⟩)
      ((s.store request).freeRequest encoders connector request) := by
  unfold Scheduler.freeRequest
  split
  · exact trivial
  · refine (Scheduler.connectorFinished_meets connector request (s.store request)).bind ?_
    rintro ⟨delays, params⟩ isAnswer
    change delays =
      Scheduler.delaysFree connector request (s.kv.getBlocks request.requestId) at isAnswer
    unfold finishOp
    rw [← isAnswer]
    cases delays with
    | true => exact ⟨_, .finishDelayed updates unfinished finished⟩
    | false =>
      cases pinned : request.pinned with
      | true =>
        have finishes := Lifecycle.Step.finishPinned updates unfinished finished pinned
        exact ⟨_, .engine finishes fun _ isAdd => (nomatch isAdd)⟩
      | false =>
        refine (Scheduler.freeBlocks_meets request _).bind ?_
        rintro s' ⟨kv, frees, rfl⟩
        have finishes := Lifecycle.Step.finish updates unfinished finished pinned frees
        rw [← Dict.erase_set _ _ request] at finishes
        exact ⟨_, .engine finishes fun _ isAdd => (nomatch isAdd)⟩

theorem finishedSending_step (stored : s.requests.get? request.requestId = some request)
    (isDelayed : (history request.requestId).delayed = true)
    (notSent : (history request.requestId).sent = false) :
    Gives
      (fun s' => ∃ history', Step hasher ⟨s.queues.life, history⟩ (.sent request.requestId)
        ⟨s'.queues.life, history'⟩)
      (s.finishedSending request.requestId) := by
  unfold Scheduler.finishedSending
  rw [stored]
  refine (Scheduler.freeBlocks_meets request s).mono ?_
  rintro s' ⟨kv, frees, rfl⟩
  exact ⟨_, .sent isDelayed notSent stored frees⟩

theorem unpinRequest_step (id : Nat) :
    Gives
      (fun s' => ∃ history', Step hasher ⟨s.queues.life, history⟩ (.engine (.unpin id))
        ⟨s'.queues.life, history'⟩)
      (s.unpinRequest id) := by
  unfold Scheduler.unpinRequest
  cases unpins : s.kv.unpinRequest id with
  | error e => exact trivial
  | ok kv => exact ⟨_, .engine (.unpin unpins) fun _ isAdd => (nomatch isAdd)⟩

end Transfers

/-! ## Both orders -/

def sendingConnector : KVConnector ContentHash where
  supportsHMA := false
  getNumNewMatchedTokens := fun _ _ => (some 0, false)
  requestFinished := fun _ _ => (true, none)

namespace Scheduler

/-- The pinned request is added, scheduled and finishes, and its blocks are sent. -/
def finishSending : Except EngineError
    (SchedulerOutput × Scheduler ContentHash Unit) := do
  let s ← (smallScheduler smallKVCacheConfig).execWith noEncoder (some sendingConnector)
    (.add pinnedCoreRequest)
  let (output, s) ← s.schedule noEncoder (some sendingConnector)
  let s ← s.execWith noEncoder (some sendingConnector) (.update output (oneTokenEach [7]))
  return (output, s)

/-- Its first block is freed by `unpin_request` before the transfer has been reported.  If the
transfer is reported first, the request loses the block while it is pinned, and the block stays lost
when the request is unpinned. -/
theorem transfer_and_pin_ignore_each_other :
    ∃ ops s, Trace (ConnectorStep noEncoder) (smallScheduler smallKVCacheConfig) ops s ∧
      (∃ request, s.requests.get? 7 = some request ∧ request.isFinished = true ∧
        request.pinned = true) ∧ s.kv.Holds 7 1 ∧
      (∃ s', s.unpinRequest 7 = .ok s' ∧ 1 ∈ s'.kv.blockPool.freeBlockQueue.blocks) ∧
      ∃ s' s'', s.updateFromKvXferFinished [] [7] = .ok s' ∧ (∀ b, ¬ s'.kv.Holds 7 b) ∧
        s'.unpinRequest 7 = .ok s'' ∧ 1 ∉ s''.kv.blockPool.freeBlockQueue.blocks ∧
        ∀ id, ¬ s''.kv.Holds id 1 := by
  have free := contentHasher_free 2
  have runs : ∃ result, finishSending = .ok result ∧
      (∃ request, result.2.requests.get? 7 = some request ∧ request.isFinished = true ∧
        request.pinned = true) ∧ 1 ∈ (result.2.kv.getBlocks 7).flatten ∧
      (∃ s', result.2.unpinRequest 7 = .ok s' ∧ 1 ∈ s'.kv.blockPool.freeBlockQueue.blocks) ∧
      ∃ t, result.2.updateFromKvXferFinished [] [7] = .ok t ∧ (t.kv.getBlocks 7).flatten = [] ∧
        ∃ t', t.unpinRequest 7 = .ok t' ∧ (t'.kv.blockPool.blocks 1).refCnt = 0 ∧
          (t'.kv.blockPool.blocks 1).pinned = true ∧ t'.kv.blockPool.numGpuBlocks = 4 := by
    decide +kernel
  obtain ⟨⟨output, s⟩, runs, stored, held, unpins, t, reported, nothing, t', unpinned, noRefs,
    isPinned, numBlocks⟩ := runs
  obtain ⟨s₀, adds, runs⟩ := bind_eq_ok.mp runs
  obtain ⟨⟨output', s₁⟩, schedules, runs⟩ := bind_eq_ok.mp runs
  obtain ⟨s₂, updates, runs⟩ := bind_eq_ok.mp runs
  cases runs
  have scheduled : ConnectorStep noEncoder s₀ (some sendingConnector, .schedule) s₁ :=
    bind_eq_ok.mpr ⟨(output, s₁), schedules, rfl⟩
  have run : Trace (ConnectorStep noEncoder) (smallScheduler smallKVCacheConfig)
      [(some sendingConnector, .add pinnedCoreRequest), (some sendingConnector, .schedule),
        (some sendingConnector, .update output (oneTokenEach [7]))] s :=
    .cons adds (.cons scheduled (.cons updates (.nil s)))
  have consistent : Consistent (some (contentHasher 2)) s := consistent_of_trace free run
  -- the block is still marked as pinned, but no request refers to it
  have ok : t'.kv.Ok := by
    have reachedT : Consistent (some (contentHasher 2)) t :=
      (consistent.updateFromKvXferFinished [] [7]).ok reported
    obtain ⟨kv, frees, same⟩ := bind_eq_ok.mp unpinned
    cases same
    exact ((reachedT.ok.unpinRequest 7).ok frees).1.ok
  refine ⟨_, s, run, stored, holds_iff_mem_getBlocks.mpr held, unpins, t, t', reported,
    fun b holds => ?_, unpinned, ok.lost (by decide) (numBlocks ▸ by decide) noRefs isPinned⟩
  rw [holds_iff_mem_getBlocks, nothing] at holds
  exact absurd holds List.not_mem_nil

end Scheduler

/-- The small pinned request is added, gets its slots, finishes, and is unpinned. -/
theorem released_after_unpin_pinned :
    ∃ ops s op s', Trace (Transfers.PinningStep (some (contentHasher 2)))
        (Transfers.init smallKVCacheConfig) ops s ∧
      Transfers.PinningStep (some (contentHasher 2)) s op s' ∧
      (s'.history 7).blocks = some [1, 2] ∧ (s.life.kv.getBlocks 7).flatten = [1, 2] ∧
      (s'.history 7).Released ∧ ∀ b, ¬ s'.life.kv.Holds 7 b := by
  have free := contentHasher_free 2
  have hashed : smallPinnedRequest.Hashed (some (contentHasher 2)) :=
    (Request.hashed_init _ _).hashNewFullBlocks
  have runs : ∃ result, (init smallKVCacheConfig).allocateSlots smallPinnedArgs = .ok result ∧
      (result.2.getBlocks 7).flatten = [1, 2] ∧
      ∃ kv', result.2.unpinRequest 7 = .ok kv' ∧ True := by
    decide +kernel
  obtain ⟨⟨newBlocks, kv⟩, allocated, blocks, kv', unpinned, -⟩ := runs
  have adds : Lifecycle.Step (some (contentHasher 2)) (Lifecycle.init smallKVCacheConfig)
      (.add smallPinnedRequest) _ := .add_first hashed rfl
  have run : Trace (Transfers.PinningStep (some (contentHasher 2)))
      (Transfers.init smallKVCacheConfig) [.engine (.add smallPinnedRequest),
        .engine (.allocate smallPinnedArgs), .engine (.finish smallFinishedRequest)] _ :=
    .cons ⟨.engine adds fun _ _ => rfl, trivial⟩ <|
      .cons ⟨.engine (.allocate rfl rfl ⟨hashed, Or.inl rfl⟩ allocated) fun _ isAdd =>
        (nomatch isAdd),
        trivial⟩ <|
      .cons ⟨.engine (.finishPinned ⟨rfl, rfl, hashed⟩ rfl rfl rfl) fun _ isAdd => (nomatch isAdd),
        fun _ => Or.inl rfl⟩ (.nil _)
  have step : ∀ s : Transfers _, s.life.kv = kv →
      Transfers.PinningStep (some (contentHasher 2)) s (.engine (.unpin 7))
        (s.afterwards (.engine (.unpin 7)) { s.life with kv := kv' }) := fun s isKv =>
    ⟨.engine (.unpin (isKv ▸ unpinned)) fun _ isAdd => (nomatch isAdd), trivial⟩
  have left := congrArg some blocks
  refine ⟨_, _, _, _, run, step _ rfl, left, blocks, ⟨rfl, nofun⟩, ?_⟩
  exact ((Transfers.released_after_unpin (E := Unit) free run (step _ rfl)).1 7 [1, 2] left).2.1
    ⟨rfl, nofun⟩

end Kalypso.Engine
