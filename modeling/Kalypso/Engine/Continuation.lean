import Kalypso.Engine.Transfer

/-!
# Requests that the engine goes on with

Between the calls that add and unpin requests, the scheduler has no new requests, a finished
request stays finished, and its blocks stay as they are.
-/

set_option autoImplicit false

namespace Kalypso.Engine

open Kalypso.Lib

namespace Lifecycle

variable {H : Type} [DecidableEq H] {hasher : Option (BlockHasher H)} {s s' s'' : Lifecycle H}
  {op : LifecycleOp H}

/-- No request is new, and requests that are finished or not stored keep their blocks. -/
structure Continues (s s' : Lifecycle H) : Prop where
  stored : ∀ id request, s'.requests.get? id = some request →
    ∃ old, s.requests.get? id = some old ∧ old.pinned = request.pinned
  settled : ∀ id, (∀ old, s.requests.get? id = some old → old.isFinished = true) →
    s'.kv.getBlocks id = s.kv.getBlocks id ∧
      ∀ request, s'.requests.get? id = some request → request.isFinished = true

omit [DecidableEq H] in
theorem Continues.refl (s : Lifecycle H) : Continues s s :=
  ⟨fun _ request found => ⟨request, found, rfl⟩, fun _ finished => ⟨rfl, finished⟩⟩

omit [DecidableEq H] in
theorem Continues.trans (first : Continues s s') (second : Continues s' s'') : Continues s s'' := by
  refine ⟨fun id request found => ?_, fun id finished => ?_⟩
  · obtain ⟨middle, isMiddle, samePin⟩ := second.stored id request found
    obtain ⟨old, isOld, samePin'⟩ := first.stored id middle isMiddle
    exact ⟨old, isOld, samePin'.trans samePin⟩
  · obtain ⟨blocks, finished'⟩ := first.settled id finished
    obtain ⟨blocks', finished''⟩ := second.settled id finished'
    exact ⟨blocks'.trans blocks, finished''⟩

theorem Step.continues (free : ∀ h ∈ hasher, h.CollisionFree) (step : Step hasher s op s')
    (ok : s.kv.Ok) (notAdded : ∀ request, op ≠ .add request) (notUnpinned : ∀ id, op ≠ .unpin id) :
    Continues s s' := by
  refine ⟨fun id request found => ?_, fun id finished => ?_⟩
  · by_cases different : id = op.requestId
    · subst different
      cases step with
      | add => exact absurd rfl (notAdded _)
      | allocate | pin => exact ⟨request, found, rfl⟩
      | progress updates | finishPinned updates =>
        cases (Dict.get?_set_self _ _ _).symm.trans found
        exact ⟨_, updates.stored, updates.pinned.symm⟩
      | @preempt victim _ stored =>
        cases (Dict.get?_set_self _ _ _).symm.trans found
        exact ⟨victim, stored, rfl⟩
      | finish => cases (Dict.get?_erase_self _ _).symm.trans found
      | unpin => exact absurd rfl (notUnpinned _)
    · rw [step.requests_of_ne different] at found
      exact ⟨request, found, rfl⟩
  · have notReplaced : ∀ request, op = .add request → request.requestId ≠ id :=
      fun request isAdd => absurd isAdd (notAdded request)
    cases found : s.requests.get? id with
    | none =>
      obtain ⟨absent, blocks⟩ := step.absent_stays free ok found (notUnpinned id) notReplaced
      exact ⟨blocks, fun request isStored => nomatch absent.symm.trans isStored⟩
    | some old =>
      obtain ⟨⟨request, stays, isFinished, -⟩, blocks, -⟩ :=
        step.finished_stays free ok found (finished old found) (notUnpinned id) notReplaced
      refine ⟨blocks, fun request' isStored => ?_⟩
      cases stays.symm.trans isStored
      exact isFinished

theorem continues_of_trace (free : ∀ h ∈ hasher, h.CollisionFree) {ops : List (LifecycleOp H)}
    (run : Trace (Step hasher) s ops s') (ok : s.kv.Ok)
    (others : ∀ op ∈ ops, (∀ request, op ≠ .add request) ∧ ∀ id, op ≠ .unpin id) :
    Continues s s' := by
  have both := run.invariant_of (P := fun s' => s'.kv.Ok ∧ Continues s s')
    (A := fun op => (∀ request, op ≠ .add request) ∧ ∀ id, op ≠ .unpin id)
    (fun _ _ _ allowed step held => ⟨(step.effect free held.1).ok,
      held.2.trans (step.continues free held.1 allowed.1 allowed.2)⟩) others ⟨ok, .refl s⟩
  exact both.2

end Lifecycle

def SchedulerOp.IsInternal : SchedulerOp → Prop
  | .add _ | .unpin _ => False
  | .schedule | .update _ _ | .finish _ _ | .pin _ | .compileGrammar _ |
    .updateDraftTokenIds _ _ => True

theorem SchedulerOp.IsInternal.allows {H : Type} {op : SchedulerOp} (internal : op.IsInternal)
    {step : LifecycleOp H} (allowed : op.Allows step) :
    (∀ request, step ≠ .add request) ∧ ∀ id, step ≠ .unpin id := by
  constructor
  all_goals
    rintro _ rfl
    cases op with
    | add | unpin => exact internal
    | pin id => cases allowed
    | schedule | update | finish | compileGrammar | updateDraftTokenIds => exact allowed

namespace Scheduler

variable {H E : Type} [DecidableEq H] {hasher : Option (BlockHasher H)} {s s' : Scheduler H E}
  {op : SchedulerOp} {encoders : EncoderCacheManager H E}

structure Sound (hasher : Option (BlockHasher H)) (s : Scheduler H E) : Prop where
  isHasher : s.hasher = hasher
  inv : s.queues.Inv hasher

variable (free : ∀ h ∈ hasher, h.CollisionFree)

include free in
theorem Sound.step (sound : Sound hasher s) (step : Step encoders s op s') :
    Sound hasher s' := by
  have moves := step.movesTo free sound.isHasher sound.inv
  exact ⟨moves.static.hasher.trans sound.isHasher, moves.run.inv free sound.inv⟩

include free in
theorem Step.continues (sound : Sound hasher s) (step : Step encoders s op s')
    (internal : op.IsInternal) : Lifecycle.Continues s.queues.life s'.queues.life := by
  obtain ⟨ops, trace, allowed⟩ := (step.movesTo free sound.isHasher sound.inv).run
  exact Lifecycle.continues_of_trace free (Queues.trace_life trace) sound.inv.life.ok
    fun op member => internal.allows (allowed op member)

/-! ## Unpinning several requests -/

def unpinRequests (ids : List Nat) (s : Scheduler H E) : Except EngineError (Scheduler H E) :=
  ids.foldlM (fun s id => s.unpinRequest id) s

structure Unpins (ids : List Nat) (s s' : Scheduler H E) : Prop where
  requests : s'.requests = s.requests
  emptied : ∀ id ∈ ids, (s'.kv.getBlocks id).flatten = []
  others : ∀ id, s'.kv.getBlocks id = s.kv.getBlocks id ∨ (s'.kv.getBlocks id).flatten = []

include free in
theorem unpinRequest_unpins (sound : Sound hasher s) (id : Nat) :
    ∃ s', s.unpinRequest id = .ok s' ∧ Unpins [id] s s' ∧ Sound hasher s' := by
  obtain ⟨kv, frees⟩ := (s.kv.clearPinned id).free_returns id
  have unpins : s.unpinRequest id = .ok { s with kv := kv } := bind_eq_ok.mpr ⟨kv, frees, rfl⟩
  have ok : s.kv.Ok := sound.inv.life.ok
  obtain ⟨effect, -, nothing⟩ := (ok.unpinRequest id).ok frees
  obtain ⟨move, static⟩ : Queues.Move hasher s.queues (.unpin id) { s with kv := kv }.queues ∧
      Static s { s with kv := kv } := (unpinRequest_move id).ok unpins
  have run : Queues.Run hasher (fun _ => True) s.queues { s with kv := kv }.queues :=
    .single move trivial
  have emptied : (kv.getBlocks id).flatten = [] := Transfers.flatten_eq_nil nothing
  refine ⟨_, unpins, ⟨rfl, fun other member => ?_, fun other => ?_⟩,
    static.hasher.trans sound.isHasher, run.inv free sound.inv⟩
  · rw [List.mem_singleton.mp member]
    exact emptied
  · by_cases same : other = id
    · subst same
      exact Or.inr emptied
    · exact Or.inl (KVCacheManager.getBlocks_of_frame same effect.frame)

include free in
/-- `unpin_requests` returns, and the requests hold nothing afterwards. -/
theorem unpinRequests_unpins (ids : List Nat) :
    ∀ s : Scheduler H E, Sound hasher s →
      ∃ s', s.unpinRequests ids = .ok s' ∧ Unpins ids s s' ∧ Sound hasher s' := by
  induction ids with
  | nil =>
    intro s sound
    exact ⟨s, rfl, ⟨rfl, fun _ member => absurd member List.not_mem_nil, fun _ => Or.inl rfl⟩,
      sound⟩
  | cons id rest ih =>
    intro s sound
    obtain ⟨s₁, unpins, first, sound₁⟩ := unpinRequest_unpins free sound id
    obtain ⟨s₂, unpinsRest, later, sound₂⟩ := ih s₁ sound₁
    have others : ∀ other, s₂.kv.getBlocks other = s.kv.getBlocks other ∨
        (s₂.kv.getBlocks other).flatten = [] := by
      intro other
      rcases later.others other with same | empty
      · rw [same]
        exact first.others other
      · exact Or.inr empty
    refine ⟨s₂, bind_eq_ok.mpr ⟨s₁, unpins, unpinsRest⟩,
      ⟨later.requests.trans first.requests, fun other member => ?_, others⟩, sound₂⟩
    rcases List.mem_cons.mp member with rfl | isLater
    · rcases later.others other with same | empty
      · rw [same]
        exact first.emptied other List.mem_cons_self
      · exact empty
    · exact later.emptied other isLater

end Scheduler

end Kalypso.Engine
