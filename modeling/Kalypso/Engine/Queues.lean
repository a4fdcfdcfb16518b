import Mathlib.Data.Multiset.Dedup
import Kalypso.Engine.Lifecycle

/-!
# Requests and queues

The life of a request together with the two queues of the scheduler, without their order.  A
move is a step in the life of one request and what it does to the queues.  Every stored request
that is not finished is in exactly one queue, the one that its status says.
-/

set_option autoImplicit false

namespace Kalypso.Engine

open Kalypso.Lib

def RequestStatus.isWaiting : RequestStatus → Bool
  | .waiting | .waitingForFsm | .waitingForRemoteKvs | .preempted => true
  | .running | .finishedStopped | .finishedLengthCapped | .finishedAborted | .finishedIgnored
  | .finishedError => false

theorem RequestStatus.isFinished_eq_false_iff (status : RequestStatus) :
    status.isFinished = false ↔ status.isWaiting = true ∨ status = .running := by
  cases status <;> decide

def RequestStatus.SameQueue (old new : RequestStatus) : Prop :=
  new.isWaiting = old.isWaiting ∧ (new = .running ↔ old = .running)

theorem RequestStatus.SameQueue.refl (status : RequestStatus) : status.SameQueue status :=
  ⟨rfl, Iff.rfl⟩

theorem RequestStatus.SameQueue.isFinished {old new : RequestStatus} (same : old.SameQueue new) :
    new.isFinished = old.isFinished := by
  rw [Bool.eq_iff_iff, ← not_iff_not, Bool.not_eq_true, Bool.not_eq_true,
    RequestStatus.isFinished_eq_false_iff, RequestStatus.isFinished_eq_false_iff, same.1, same.2]

theorem RequestStatus.SameQueue.of_finished {old new : RequestStatus}
    (wasFinished : old.isFinished = true) (isFinished : new.isFinished = true) :
    old.SameQueue new := by
  cases old <;> cases wasFinished <;> cases new <;> cases isFinished <;> exact ⟨rfl, nofun, nofun⟩

structure Queues (H : Type) where
  life : Lifecycle H
  waiting : Multiset Nat
  running : Multiset Nat

namespace Queues

variable {H : Type} [DecidableEq H] {hasher : Option (BlockHasher H)} {config : KVCacheConfig}
  {q q' : Queues H} {op : LifecycleOp H}

def init (config : KVCacheConfig) : Queues H := ⟨.init config, 0, 0⟩

inductive Move (hasher : Option (BlockHasher H)) : Queues H → LifecycleOp H → Queues H → Prop
  | add {q : Queues H} {request : Request H} {life : Lifecycle H} :
      q.life.Step hasher (.add request) life → request.status.isWaiting = true →
      Move hasher q (.add request) ⟨life, request.requestId ::ₘ q.waiting, q.running⟩
  | allocate {q : Queues H} {args : KVCacheManager.SlotArgs H} {life : Lifecycle H} :
      q.life.Step hasher (.allocate args) life →
      Move hasher q (.allocate args) ⟨life, q.waiting, q.running⟩
  | update {q : Queues H} {old request : Request H} {life : Lifecycle H} :
      q.life.Step hasher (.progress request) life →
      q.life.requests.get? request.requestId = some old → old.status.SameQueue request.status →
      Move hasher q (.progress request) ⟨life, q.waiting, q.running⟩
  | start {q : Queues H} {request : Request H} {life : Lifecycle H} {waiting : Multiset Nat} :
      q.life.Step hasher (.progress request) life → request.status = .running →
      q.waiting = request.requestId ::ₘ waiting →
      Move hasher q (.progress request) ⟨life, waiting, request.requestId ::ₘ q.running⟩
  | preempt {q : Queues H} {id : Nat} {life : Lifecycle H} {running : Multiset Nat} :
      q.life.Step hasher (.preempt id) life → q.running = id ::ₘ running →
      Move hasher q (.preempt id) ⟨life, id ::ₘ q.waiting, running⟩
  | finish {q : Queues H} {request : Request H} {life : Lifecycle H} :
      q.life.Step hasher (.finish request) life →
      Move hasher q (.finish request)
        ⟨life, q.waiting.erase request.requestId, q.running.erase request.requestId⟩
  | pin {q : Queues H} {id : Nat} {life : Lifecycle H} : q.life.Step hasher (.pin id) life →
      Move hasher q (.pin id) ⟨life, q.waiting, q.running⟩
  | unpin {q : Queues H} {id : Nat} {life : Lifecycle H} : q.life.Step hasher (.unpin id) life →
      Move hasher q (.unpin id) ⟨life, q.waiting, q.running⟩

theorem Move.step (move : Move hasher q op q') : q.life.Step hasher op q'.life := by
  cases move with
  | add step => exact step
  | allocate step => exact step
  | update step => exact step
  | start step => exact step
  | preempt step => exact step
  | finish step => exact step
  | pin step => exact step
  | unpin step => exact step

theorem trace_life {ops : List (LifecycleOp H)} (run : Trace (Move hasher) q ops q') :
    Trace (Lifecycle.Step hasher) q.life ops q'.life := by
  induction run with
  | nil q => exact .nil q.life
  | cons move _ ih => exact .cons move.step ih

section

omit [DecidableEq H]

/-- The queues hold the stored requests that are not finished, each of them once. -/
structure Inv (hasher : Option (BlockHasher H)) (q : Queues H) : Prop where
  life : q.life.Inv hasher
  nodup : (q.waiting + q.running).Nodup
  waiting : ∀ id ∈ q.waiting, ∃ request, q.life.requests.get? id = some request ∧
    request.status.isWaiting = true
  running : ∀ id ∈ q.running, ∃ request, q.life.requests.get? id = some request ∧
    request.status = .running
  listed : ∀ id request, q.life.requests.get? id = some request → request.isFinished = false →
    id ∈ q.waiting ∨ id ∈ q.running

theorem inv_init (config : KVCacheConfig) (hasher : Option (BlockHasher H)) :
    (init config).Inv hasher :=
  ⟨Lifecycle.inv_init config hasher, Multiset.nodup_zero,
    fun _ member => absurd member (Multiset.notMem_zero _),
    fun _ member => absurd member (Multiset.notMem_zero _), fun _ _ found => (nomatch found)⟩

theorem Inv.mem_waiting (inv : q.Inv hasher) {id : Nat} {request : Request H}
    (stored : q.life.requests.get? id = some request) :
    id ∈ q.waiting ↔ request.status.isWaiting = true := by
  constructor
  · intro member
    obtain ⟨found, isStored, isWaiting⟩ := inv.waiting id member
    obtain rfl := Option.some.inj (stored.symm.trans isStored)
    exact isWaiting
  · intro isWaiting
    have unfinished : request.isFinished = false :=
      (RequestStatus.isFinished_eq_false_iff _).mpr (Or.inl isWaiting)
    refine (inv.listed id request stored unfinished).resolve_right fun member => ?_
    obtain ⟨found, isStored, isRunning⟩ := inv.running id member
    obtain rfl := Option.some.inj (stored.symm.trans isStored)
    rw [isRunning] at isWaiting
    cases isWaiting

theorem Inv.mem_running (inv : q.Inv hasher) {id : Nat} {request : Request H}
    (stored : q.life.requests.get? id = some request) :
    id ∈ q.running ↔ request.status = .running := by
  constructor
  · intro member
    obtain ⟨found, isStored, isRunning⟩ := inv.running id member
    obtain rfl := Option.some.inj (stored.symm.trans isStored)
    exact isRunning
  · intro isRunning
    have unfinished : request.isFinished = false :=
      (RequestStatus.isFinished_eq_false_iff _).mpr (Or.inr isRunning)
    refine (inv.listed id request stored unfinished).resolve_left fun member => ?_
    rw [inv.mem_waiting stored, isRunning] at member
    cases member

theorem Inv.unfinished (inv : q.Inv hasher) {id : Nat} (queued : id ∈ q.waiting + q.running) :
    ∃ request, q.life.requests.get? id = some request ∧ request.isFinished = false := by
  rcases Multiset.mem_add.mp queued with member | member
  · obtain ⟨request, stored, isWaiting⟩ := inv.waiting id member
    exact ⟨request, stored, (RequestStatus.isFinished_eq_false_iff _).mpr (Or.inl isWaiting)⟩
  · obtain ⟨request, stored, isRunning⟩ := inv.running id member
    exact ⟨request, stored, (RequestStatus.isFinished_eq_false_iff _).mpr (Or.inr isRunning)⟩

/-- A step in the life of one request leaves the queues right if it does so for this request and
keeps the others where they are. -/
theorem Inv.relist (inv : q.Inv hasher) {life : Lifecycle H} {waiting running : Multiset Nat}
    (id : Nat) (lifeInv : life.Inv hasher)
    (others : ∀ other, other ≠ id → life.requests.get? other = q.life.requests.get? other)
    (nodup : (waiting + running).Nodup)
    (sameWaiting : ∀ other, other ≠ id → (other ∈ waiting ↔ other ∈ q.waiting))
    (sameRunning : ∀ other, other ≠ id → (other ∈ running ↔ other ∈ q.running))
    (isWaiting : id ∈ waiting → ∃ request, life.requests.get? id = some request ∧
      request.status.isWaiting = true)
    (isRunning : id ∈ running → ∃ request, life.requests.get? id = some request ∧
      request.status = .running)
    (isListed : ∀ request, life.requests.get? id = some request → request.isFinished = false →
      id ∈ waiting ∨ id ∈ running) :
    Inv hasher ⟨life, waiting, running⟩ := by
  refine ⟨lifeInv, nodup, fun other member => ?_, fun other member => ?_,
    fun other request stored unfinished => ?_⟩
  · by_cases same : other = id
    · exact same ▸ isWaiting (same ▸ member)
    · obtain ⟨request, stored, holds⟩ := inv.waiting other ((sameWaiting other same).mp member)
      exact ⟨request, (others other same).trans stored, holds⟩
  · by_cases same : other = id
    · exact same ▸ isRunning (same ▸ member)
    · obtain ⟨request, stored, holds⟩ := inv.running other ((sameRunning other same).mp member)
      exact ⟨request, (others other same).trans stored, holds⟩
  · by_cases same : other = id
    · subst same
      exact isListed request stored unfinished
    · have listed := inv.listed other request ((others other same).symm.trans stored) unfinished
      rwa [← sameWaiting other same, ← sameRunning other same] at listed

theorem mem_cons_of_ne {id other : Nat} {queue : Multiset Nat} (different : other ≠ id) :
    other ∈ id ::ₘ queue ↔ other ∈ queue := by
  rw [Multiset.mem_cons]
  exact or_iff_right different

end

/-- A step that changes neither the queues nor which queue a request belongs to. -/
theorem Inv.sameQueues (free : ∀ h ∈ hasher, h.CollisionFree) (inv : q.Inv hasher)
    {life : Lifecycle H} (step : q.life.Step hasher op life)
    (same : ∀ request, life.requests.get? op.requestId = some request →
      ∃ old, q.life.requests.get? op.requestId = some old ∧ old.status.SameQueue request.status)
    (stays : ∀ old, q.life.requests.get? op.requestId = some old →
      ∃ request, life.requests.get? op.requestId = some request) :
    Inv hasher ⟨life, q.waiting, q.running⟩ := by
  have lifeInv := inv.life.step free step
  have fate : ∀ old, q.life.requests.get? op.requestId = some old →
      ∃ request, life.requests.get? op.requestId = some request ∧
        old.status.SameQueue request.status := by
    intro old stored
    obtain ⟨request, found⟩ := stays old stored
    obtain ⟨before, storedBefore, sameQueue⟩ := same request found
    obtain rfl := Option.some.inj (stored.symm.trans storedBefore)
    exact ⟨request, found, sameQueue⟩
  refine inv.relist op.requestId lifeInv (fun other different => step.requests_of_ne different)
    inv.nodup (fun _ _ => Iff.rfl) (fun _ _ => Iff.rfl) ?_ ?_ ?_
  · intro member
    obtain ⟨old, stored, isWaiting⟩ := inv.waiting _ member
    obtain ⟨request, found, sameQueue⟩ := fate old stored
    exact ⟨request, found, sameQueue.1.trans isWaiting⟩
  · intro member
    obtain ⟨old, stored, isRunning⟩ := inv.running _ member
    obtain ⟨request, found, sameQueue⟩ := fate old stored
    exact ⟨request, found, sameQueue.2.mpr isRunning⟩
  · intro request found unfinished
    obtain ⟨old, stored, sameQueue⟩ := same request found
    refine inv.listed _ old stored ((RequestStatus.isFinished_eq_false_iff _).mpr ?_)
    rw [← sameQueue.1, ← sameQueue.2]
    exact (RequestStatus.isFinished_eq_false_iff _).mp unfinished

theorem Inv.move (free : ∀ h ∈ hasher, h.CollisionFree) (inv : q.Inv hasher)
    (move : Move hasher q op q') : q'.Inv hasher := by
  have lifeInv := inv.life.step free move.step
  have others : ∀ other, other ≠ op.requestId →
      q'.life.requests.get? other = q.life.requests.get? other :=
    fun other different => move.step.requests_of_ne different
  cases move with
  | @add request life step isWaiting =>
    have stored : life.requests.get? request.requestId = some request := by
      cases step with
      | add => exact Dict.get?_set_self _ _ _
    have notQueued : request.requestId ∉ q.waiting + q.running := by
      intro member
      obtain ⟨old, found, unfinished⟩ := inv.unfinished member
      cases step with
      | add _ _ isNew => cases unfinished.symm.trans (isNew old found)
    refine inv.relist request.requestId lifeInv others ?_
      (fun _ different => mem_cons_of_ne different) (fun _ _ => Iff.rfl)
      (fun _ => ⟨request, stored, isWaiting⟩) ?_
      (fun _ _ _ => Or.inl (Multiset.mem_cons_self _ _))
    · rw [Multiset.cons_add, Multiset.nodup_cons]
      exact ⟨notQueued, inv.nodup⟩
    · exact fun member => absurd (Multiset.mem_add.mpr (Or.inr member)) notQueued
  | allocate step | pin step | unpin step =>
    refine inv.sameQueues free step (fun request stored => ⟨request, ?_, .refl _⟩)
      fun old stored => ⟨old, ?_⟩
    all_goals
      cases step with
      | _ => exact stored
  | @update old request life step stored sameQueue =>
    have found : life.requests.get? request.requestId = some request := by
      cases step with
      | progress => exact Dict.get?_set_self _ _ _
    refine inv.sameQueues free step (fun later isStored => ?_) fun _ _ => ⟨request, found⟩
    obtain rfl := Option.some.inj (found.symm.trans isStored)
    exact ⟨old, stored, sameQueue⟩
  | @start request life waiting step isRunning isHead =>
    have found : life.requests.get? request.requestId = some request := by
      cases step with
      | progress => exact Dict.get?_set_self _ _ _
    have nodup := inv.nodup
    rw [isHead, Multiset.cons_add, Multiset.nodup_cons] at nodup
    refine inv.relist request.requestId lifeInv others ?_ (fun _ different => ?_)
      (fun _ different => mem_cons_of_ne different) ?_ (fun _ => ⟨request, found, isRunning⟩)
      (fun _ _ _ => Or.inr (Multiset.mem_cons_self _ _))
    · rw [Multiset.add_cons, Multiset.nodup_cons]
      exact nodup
    · rw [isHead, mem_cons_of_ne different]
    · exact fun member => absurd (Multiset.mem_add.mpr (Or.inl member)) nodup.1
  | @preempt id life running step isMember =>
    have found : ∃ request, life.requests.get? id = some request ∧
        request.status.isWaiting = true := by
      cases step with
      | preempt => exact ⟨_, Dict.get?_set_self _ _ _, rfl⟩
    have nodup := inv.nodup
    rw [isMember, Multiset.add_cons, Multiset.nodup_cons] at nodup
    refine inv.relist id lifeInv others ?_ (fun _ different => mem_cons_of_ne different)
      (fun _ different => ?_) (fun _ => found) ?_
      (fun _ _ _ => Or.inl (Multiset.mem_cons_self _ _))
    · rw [Multiset.cons_add, Multiset.nodup_cons]
      exact nodup
    · rw [isMember, mem_cons_of_ne different]
    · exact fun member => absurd (Multiset.mem_add.mpr (Or.inr member)) nodup.1
  | @finish request life step =>
    have parts := Multiset.nodup_add.mp inv.nodup
    refine inv.relist request.requestId lifeInv others ?_
      (fun _ different => Multiset.mem_erase_of_ne different)
      (fun _ different => Multiset.mem_erase_of_ne different)
      (fun member => absurd member parts.1.notMem_erase)
      (fun member => absurd member parts.2.1.notMem_erase) fun later stored unfinished => ?_
    · exact Multiset.nodup_of_le
        (add_le_add (Multiset.erase_le _ _) (Multiset.erase_le _ _)) inv.nodup
    · cases step with
      | finishPinned _ _ finished _ =>
        obtain rfl := Option.some.inj (stored.symm.trans (Dict.get?_set_self _ _ _))
        cases unfinished.symm.trans finished
      | finish => cases stored.symm.trans (Dict.get?_erase_self _ _)

/-! ## Runs -/

def Run (hasher : Option (BlockHasher H)) (A : LifecycleOp H → Prop) (q q' : Queues H) : Prop :=
  ∃ ops, Trace (Move hasher) q ops q' ∧ ∀ op ∈ ops, A op

variable {A : LifecycleOp H → Prop} {q'' : Queues H}

theorem Run.refl (q : Queues H) : Run hasher A q q :=
  ⟨[], .nil q, fun _ member => absurd member List.not_mem_nil⟩

theorem Run.trans (first : Run hasher A q q') (second : Run hasher A q' q'') :
    Run hasher A q q'' := by
  obtain ⟨ops, toMiddle, allowed⟩ := first
  obtain ⟨ops', toEnd, allowed'⟩ := second
  refine ⟨ops ++ ops', toMiddle.append toEnd, fun op member => ?_⟩
  rcases List.mem_append.mp member with member | member
  · exact allowed op member
  · exact allowed' op member

theorem Run.single (move : Move hasher q op q') (allowed : A op) : Run hasher A q q' := by
  refine ⟨[op], .cons move (.nil q'), fun other member => ?_⟩
  rw [List.mem_singleton] at member
  exact member ▸ allowed

theorem Run.inv (free : ∀ h ∈ hasher, h.CollisionFree) (run : Run hasher A q q')
    (inv : q.Inv hasher) : q'.Inv hasher := by
  obtain ⟨ops, trace, -⟩ := run
  exact trace.invariant (fun _ _ _ move held => held.move free move) inv

/-- A later version of a stored request that belongs to the same queue. -/
theorem Move.of_update {old request : Request H}
    (stored : q.life.requests.get? request.requestId = some old)
    (pinned : request.pinned = old.pinned) (hashed : request.Hashed hasher)
    (same : old.status.SameQueue request.status) :
    Move hasher q (.progress request)
      ⟨⟨q.life.kv, q.life.requests.set request.requestId request⟩, q.waiting, q.running⟩ :=
  .update (.progress ⟨stored, pinned, hashed⟩ same.isFinished) stored same

theorem Move.of_start {old request : Request H} {waiting : Multiset Nat}
    (stored : q.life.requests.get? request.requestId = some old)
    (pinned : request.pinned = old.pinned) (hashed : request.Hashed hasher)
    (wasWaiting : old.status.isWaiting = true) (isRunning : request.status = .running)
    (isHead : q.waiting = request.requestId ::ₘ waiting) :
    Move hasher q (.progress request)
      ⟨⟨q.life.kv, q.life.requests.set request.requestId request⟩, waiting,
        request.requestId ::ₘ q.running⟩ := by
  have unfinished : old.isFinished = false :=
    (RequestStatus.isFinished_eq_false_iff _).mpr (Or.inl wasWaiting)
  refine .start (.progress ⟨stored, pinned, hashed⟩ ?_) isRunning isHead
  rw [unfinished, Request.isFinished, isRunning]
  rfl

end Queues

end Kalypso.Engine
