import Kalypso.Engine.Queues
import Kalypso.Engine.ScheduleTurns

/-!
# The scheduler as a sequence of moves

Without a KV connector every call of the scheduler is a sequence of moves: steps in the life of
single requests together with their effect on the queues.  What holds of the moves therefore
holds of the scheduler.
-/

set_option autoImplicit false

namespace Kalypso.Engine

open Kalypso.Lib

def LifecycleOp.IsScheduling {H : Type} : LifecycleOp H → Prop
  | .allocate _ | .progress _ | .preempt _ => True
  | .add _ | .finish _ | .pin _ | .unpin _ => False

theorem Request.Hashed.of_blockHashes {H : Type} {hasher : Option (BlockHasher H)}
    {old request : Request H} (hashed : old.Hashed hasher)
    (same : request.blockHashes = old.blockHashes) : request.Hashed hasher := by
  cases hasher with
  | none => exact same.trans hashed
  | some hasher => exact (show hasher.Chain request.blockHashes from same ▸ hashed)

theorem insertBy_perm (before : Nat → Nat → Bool) (id : Nat) (queue : List Nat) :
    (insertBy before id queue).Perm (id :: queue) := by
  induction queue with
  | nil => exact .refl _
  | cons other rest ih =>
    rw [insertBy]
    split
    · exact .refl _
    · exact (ih.cons other).trans (.swap id other rest)

namespace Scheduler

variable {H E : Type} {s s' : Scheduler H E}

def queues (s : Scheduler H E) : Queues H := ⟨⟨s.kv, s.requests⟩, s.waiting, s.running⟩

structure Static (s s' : Scheduler H E) : Prop where
  config : s'.config = s.config
  hasher : s'.hasher = s.hasher

theorem Static.refl (s : Scheduler H E) : Static s s := ⟨rfl, rfl⟩

theorem Static.trans {s'' : Scheduler H E} (first : Static s s') (second : Static s' s'') :
    Static s s'' :=
  ⟨second.config.trans first.config, second.hasher.trans first.hasher⟩

theorem prepended_perm (id : Nat) (queue : List Nat) (s : Scheduler H E) :
    (s.prepended id queue).Perm (id :: queue) := by
  unfold prepended
  split
  · exact .refl _
  · exact insertBy_perm _ id queue

theorem prependedAll_perm (others queue : List Nat) (s : Scheduler H E) :
    (s.prependedAll others queue).Perm (others ++ queue) := by
  unfold prependedAll
  split
  · exact .refl _
  · induction others generalizing queue with
    | nil => exact .refl _
    | cons id others ih =>
      exact (ih _).trans (((insertBy_perm _ id queue).append_left others).trans
        List.perm_middle)

theorem coe_prepended (id : Nat) (queue : List Nat) (s : Scheduler H E) :
    ((s.prepended id queue : List Nat) : Multiset Nat) = id ::ₘ (queue : Multiset Nat) :=
  Multiset.coe_eq_coe.mpr (prepended_perm id queue s)

variable [DecidableEq H] {encoders : EncoderCacheManager H E}
  (hasher : Option (BlockHasher H))

theorem preemptRequest_move {victim : Request H}
    (stored : s.requests.get? victim.requestId = some victim) :
    Gives
      (fun s' => Queues.Move hasher
          ⟨⟨s.kv, s.requests⟩, s.waiting, victim.requestId ::ₘ (s.running : Multiset Nat)⟩
          (.preempt victim.requestId) s'.queues ∧ Static s s' ∧
        ∀ other, other ≠ victim.requestId → s'.requests.get? other = s.requests.get? other)
      (s.preemptRequest encoders victim) := by
  unfold preemptRequest
  split
  · exact trivial
  · rename_i isRunning
    cases freed : s.kv.free victim.requestId with
    | error e => exact trivial
    | ok kv =>
      refine ⟨?_, ⟨rfl, rfl⟩, fun other different => Dict.get?_set_of_ne _ _ different⟩
      change Queues.Move hasher _ _ ⟨_, Multiset.ofList (Scheduler.prepended _ _ _), _⟩
      rw [coe_prepended]
      exact .preempt (.preempt stored (not_not.mp isRunning) freed) rfl

end Scheduler

namespace ScheduleLoop

variable {H E : Type} [DecidableEq H] {hasher : Option (BlockHasher H)}
  {loop loop' loop'' : ScheduleLoop H E}

structure Moves (hasher : Option (BlockHasher H)) (loop loop' : ScheduleLoop H E) : Prop where
  run : Queues.Run hasher LifecycleOp.IsScheduling loop.scheduler.queues loop'.scheduler.queues
  static : Scheduler.Static loop.scheduler loop'.scheduler
  skipped : loop'.skippedWaitingRequests = loop.skippedWaitingRequests

theorem Moves.refl (loop : ScheduleLoop H E) : Moves hasher loop loop :=
  ⟨.refl _, .refl _, rfl⟩

theorem Moves.trans (first : Moves hasher loop loop') (second : Moves hasher loop' loop'') :
    Moves hasher loop loop'' :=
  ⟨first.run.trans second.run, first.static.trans second.static,
    second.skipped.trans first.skipped⟩

omit [DecidableEq H] in
theorem lowestPriority_mem {requests : Dict Nat (Request H)} {id : Nat} :
    ∀ {running : List Nat}, lowestPriority requests running = some id → id ∈ running := by
  intro running
  induction running with
  | nil => exact nofun
  | cons first rest ih =>
    intro found
    rw [lowestPriority] at found
    split at found
    · cases found
      exact List.mem_cons_self
    · rename_i other isLowest
      split at found
      · split at found
        · cases found
          exact List.mem_cons_of_mem _ (ih isLowest)
        · cases found
          exact List.mem_cons_self
      · cases found
        exact List.mem_cons_self

omit [DecidableEq H] in
theorem unschedule_meets (victim : Request H) (loop : ScheduleLoop H E) :
    Gives
      (fun loop' => loop'.scheduler = loop.scheduler ∧
        loop'.skippedWaitingRequests = loop.skippedWaitingRequests) (loop.unschedule victim) := by
  unfold unschedule
  dsimp only
  split
  · exact ⟨rfl, rfl⟩
  · exact trivial

omit [DecidableEq H] in
/-- The victim is a running request, and it is taken out of the running list. -/
theorem TakesVictim.removes {victim : Request H} (takes : TakesVictim loop victim loop') :
    ∃ id, loop.scheduler.requests.get? id = some victim ∧
      loop'.scheduler = { loop.scheduler with running := loop'.scheduler.running } ∧
      (loop.scheduler.running : Multiset Nat) = id ::ₘ (loop'.scheduler.running : Multiset Nat) ∧
      loop'.skippedWaitingRequests = loop.skippedWaitingRequests := by
  have erased : ∀ {id}, lowestPriority loop.scheduler.requests loop.scheduler.running = some id →
      (loop.scheduler.running : Multiset Nat) =
        id ::ₘ ((loop.scheduler.running.erase id : List Nat) : Multiset Nat) :=
    fun isLowest => Multiset.coe_eq_coe.mpr (List.perm_cons_erase (lowestPriority_mem isLowest))
  cases takes with
  | @scheduled id _ _ isPriority isLowest stored isScheduled gives =>
    obtain ⟨sameScheduler, sameSkipped⟩ := (unschedule_meets _ _).ok gives
    rw [sameScheduler]
    exact ⟨id, stored, rfl, erased isLowest, sameSkipped⟩
  | @unscheduled id _ isPriority isLowest stored notScheduled =>
    exact ⟨id, stored, rfl, erased isLowest, rfl⟩
  | @last id _ isFcfs isLast stored =>
    have moved := List.perm_append_singleton id loop.scheduler.running.dropLast
    rw [List.dropLast_append_getLast? _ isLast] at moved
    exact ⟨id, stored, rfl, Multiset.coe_eq_coe.mpr moved, rfl⟩

variable (free : ∀ h ∈ hasher, h.CollisionFree)
  {encoders : EncoderCacheManager H E} {request : Request H}

theorem scheduleSpecTokens_moves (loop : ScheduleLoop H E) (inv : loop.scheduler.queues.Inv hasher)
    (stored : loop.scheduler.requests.get? request.requestId = some request) (numNewTokens : Int) :
    Moves hasher loop (loop.scheduleSpecTokens request numNewTokens) := by
  have drops : Queues.Move hasher loop.scheduler.queues
      (.progress { request with specTokenIds := [] })
      (loop.scheduler.store { request with specTokenIds := [] }).queues :=
    .of_update stored rfl ((inv.life.stored _ _ stored).2.of_blockHashes rfl) (.refl _)
  obtain ⟨s, drafts, same, rfl | rfl⟩ := loop.scheduleSpecTokens_spec request numNewTokens
  · rw [same]
    exact ⟨.refl _, ⟨rfl, rfl⟩, rfl⟩
  · rw [same]
    exact ⟨.single drops trivial, ⟨rfl, rfl⟩, rfl⟩

theorem Preempts.moves {victim : Request H}
    (preempts : Preempts encoders loop victim loop')
    (inv : loop.scheduler.queues.Inv hasher) :
    Moves hasher loop loop' ∧ ∀ other, other ≠ victim.requestId →
      loop'.scheduler.requests.get? other = loop.scheduler.requests.get? other := by
  cases preempts with
  | @intro rest s takes preempted =>
    obtain ⟨id, stored, sameScheduler, removed, sameSkipped⟩ := takes.removes
    obtain rfl := (inv.life.stored _ _ stored).1
    rw [← show rest.scheduler.requests = loop.scheduler.requests by rw [sameScheduler]] at stored ⊢
    obtain ⟨move, static, others⟩ :=
      (Scheduler.preemptRequest_move hasher stored).ok preempted
    have before : (⟨⟨rest.scheduler.kv, rest.scheduler.requests⟩, rest.scheduler.waiting,
        victim.requestId ::ₘ (rest.scheduler.running : Multiset Nat)⟩ : Queues H) =
        loop.scheduler.queues := by
      rw [← removed, sameScheduler]
      rfl
    rw [before] at move
    have unchanged : Scheduler.Static loop.scheduler rest.scheduler := by
      rw [sameScheduler]
      exact ⟨rfl, rfl⟩
    exact ⟨⟨.single move trivial, unchanged.trans static, sameSkipped⟩, others⟩

theorem allocateRunning_moves (inv : loop.scheduler.queues.Inv hasher)
    (stored : loop.scheduler.requests.get? request.requestId = some request)
    (unfinished : request.isFinished = false) {numNewTokens : Int}
    {result : Option (List (List Nat)) × KVCacheManager H}
    (allocated : loop.scheduler.kv.allocateSlots
      (runningSlotArgs request numNewTokens loop.scheduler) = .ok result) :
    Moves hasher loop (loop.withKv result.2) := by
  have step : loop.scheduler.queues.life.Step hasher
      (.allocate (runningSlotArgs request numNewTokens loop.scheduler))
      ⟨result.2, loop.scheduler.requests⟩ :=
    .allocate stored unfinished ⟨(inv.life.stored _ _ stored).2, Or.inl rfl⟩ allocated
  exact ⟨.single (.allocate step) trivial, ⟨rfl, rfl⟩, rfl⟩

include free in
/-- Either the running request gets slots, or it is preempted itself. -/
theorem Allocates.moves {numNewTokens : Int} {newBlocks : Option (List (List Nat))}
    (allocates : Allocates encoders request numNewTokens loop newBlocks loop')
    (unfinished : request.isFinished = false) :
    loop.scheduler.queues.Inv hasher →
      loop.scheduler.requests.get? request.requestId = some request →
        Moves hasher loop loop' ∧ (newBlocks.isSome = true →
          loop'.scheduler.requests.get? request.requestId = some request) := by
  induction allocates with
  | fits gives =>
    intro inv stored
    exact ⟨allocateRunning_moves inv stored unfinished gives, fun _ => stored⟩
  | self gives preempts isSelf =>
    intro inv stored
    have moves := allocateRunning_moves inv stored unfinished gives
    exact ⟨moves.trans (preempts.moves (moves.run.inv free inv)).1, nofun⟩
  | other gives preempts isOther later ih =>
    intro inv stored
    have moves := allocateRunning_moves inv stored unfinished gives
    obtain ⟨preempts, others⟩ := preempts.moves (moves.run.inv free inv)
    have toNext := moves.trans preempts
    obtain ⟨rest, stays⟩ := ih (toNext.run.inv free inv) ((others _ (Ne.symm isOther)).trans stored)
    exact ⟨toNext.trans rest, stays⟩

include free in
theorem Turn.moves {goesOn : Bool} (turn : Turn encoders request loop goesOn loop')
    (inv : loop.scheduler.queues.Inv hasher)
    (stored : loop.scheduler.requests.get? request.requestId = some request)
    (isRunning : request.status = .running) : Moves hasher loop loop' := by
  have unfinished : request.isFinished = false :=
    (RequestStatus.isFinished_eq_false_iff _).mpr (Or.inr isRunning)
  have encodes : ∀ encoder, Moves hasher loop (loop.withEncoder encoder) :=
    fun _ => ⟨.refl _, ⟨rfl, rfl⟩, rfl⟩
  cases turn with
  | awaits awaits => exact ⟨.refl _, ⟨rfl, rfl⟩, rfl⟩
  | idle notAwaits plans noTokens =>
    obtain ⟨encoder, rfl⟩ := (tryScheduleEncoderInputs_spec _ _ _ _).ok plans
    exact ⟨.refl _, ⟨rfl, rfl⟩, rfl⟩
  | preempted notAwaits plans hasTokens allocates =>
    obtain ⟨encoder, rfl⟩ := (tryScheduleEncoderInputs_spec _ _ _ _).ok plans
    exact (encodes encoder).trans (allocates.moves free unfinished inv stored).1
  | @scheduled plan encoded allocated _ newBlocks notAwaits plans hasTokens allocates allots =>
    obtain ⟨encoder, rfl⟩ := (tryScheduleEncoderInputs_spec _ _ _ _).ok plans
    obtain ⟨moves, stays⟩ := allocates.moves free unfinished inv stored
    have drops := scheduleSpecTokens_moves (allocated.scheduled request newBlocks plan.numNewTokens)
      (moves.run.inv free inv) (stays rfl) plan.numNewTokens
    obtain ⟨_, _, _, rfl⟩ := (allocateEncoderInputs_spec _ plan _).ok allots
    exact ((encodes encoder).trans moves).trans
      ⟨drops.run, ⟨drops.static.config, drops.static.hasher⟩, drops.skipped⟩

include free in
theorem scheduleRunning_moves (bound : Nat) {loop : ScheduleLoop H E}
    (inv : loop.scheduler.queues.Inv hasher) :
    Gives (fun loop' => Moves hasher loop loop')
      (loop.scheduleRunning encoders bound) := by
  refine .of_ok fun loop' ran => ?_
  refine scheduleRunning_invariant (P := Moves hasher loop) ?_ bound (.refl loop) ran
  intro middle last id request goesOn moves _ isNext stored turn
  have invMiddle := moves.run.inv free inv
  obtain ⟨running, isStored, isRunning⟩ := invMiddle.running id (List.mem_of_getElem? isNext)
  obtain rfl := Option.some.inj (stored.symm.trans isStored)
  obtain rfl := (invMiddle.life.stored _ _ stored).1
  exact moves.trans (turn.moves free invMiddle stored isRunning)

/-! ## The waiting requests -/

def queuesWith (waiting : Multiset Nat) (loop : ScheduleLoop H E) : Queues H :=
  ⟨⟨loop.scheduler.kv, loop.scheduler.requests⟩, waiting, loop.scheduler.running⟩

structure Admits (hasher : Option (BlockHasher H)) (id : Nat) (waiting : Multiset Nat)
    (loop : ScheduleLoop H E) (admission : Admission) (loop' : ScheduleLoop H E) : Prop where
  run : Queues.Run hasher LifecycleOp.IsScheduling (loop.queuesWith (id ::ₘ waiting))
    (loop'.queuesWith (if admission = .start then waiting else id ::ₘ waiting))
  static : Scheduler.Static loop.scheduler loop'.scheduler
  skipped : loop'.skippedWaitingRequests = loop.skippedWaitingRequests

variable {waiting : Multiset Nat} {admission : Admission}

theorem Admits.trans {id : Nat} (first : Admits hasher id waiting loop .skip loop')
    (second : Admits hasher id waiting loop' admission loop'') :
    Admits hasher id waiting loop admission loop'' :=
  ⟨first.run.trans second.run, first.static.trans second.static,
    second.skipped.trans first.skipped⟩

theorem Admits.stop {id : Nat} (admits : Admits hasher id waiting loop .skip loop') :
    Admits hasher id waiting loop .stop loop' :=
  ⟨admits.run, admits.static, admits.skipped⟩

/-- Remote KV loading needs a connector, so that only the grammar matters here. -/
theorem readyRequest_moves (inv : (loop.queuesWith (request.requestId ::ₘ waiting)).Inv hasher)
    (stored : loop.scheduler.requests.get? request.requestId = some request) :
    Gives
      (fun (ready, s) =>
        Admits hasher request.requestId waiting loop .skip (loop.withScheduler s) ∧
        ∀ r, ready = some r → r.requestId = request.requestId ∧
          s.requests.get? request.requestId = some r ∧ r.status.isWaiting = true)
      (readyRequest false request loop.scheduler) := by
  have isWaiting : request.status.isWaiting = true :=
    (inv.mem_waiting stored).mp (Multiset.mem_cons_self _ _)
  have stays : Admits hasher request.requestId waiting loop .skip
      (loop.withScheduler loop.scheduler) :=
    ⟨.refl _, ⟨rfl, rfl⟩, rfl⟩
  unfold readyRequest
  dsimp only
  split
  · exact trivial
  · rename_i waitsForFsm
    split
    · have compiled : Queues.Move hasher (loop.queuesWith (request.requestId ::ₘ waiting))
          (.progress { request with status := .waiting })
          ⟨⟨loop.scheduler.kv, loop.scheduler.requests.set request.requestId
            { request with status := .waiting }⟩, request.requestId ::ₘ waiting,
            loop.scheduler.running⟩ := by
        refine .of_update stored rfl ((inv.life.stored _ _ stored).2.of_blockHashes rfl) ?_
        rw [waitsForFsm]
        exact ⟨rfl, by simp, by simp⟩
      refine ⟨⟨.single compiled trivial, ⟨rfl, rfl⟩, rfl⟩, fun r isReady => ?_⟩
      cases isReady
      exact ⟨rfl, Dict.get?_set_self _ _ _, rfl⟩
    · refine ⟨stays, fun _ isReady => ?_⟩
      cases isReady
  · refine ⟨stays, fun r isReady => ?_⟩
    cases isReady
    exact ⟨rfl, stored, isWaiting⟩

omit [DecidableEq H] in
theorem computedTokens_meets (connector : Option (KVConnector H)) (request : Request H)
    (kv : KVCacheManager H) :
    Gives
      (fun result => ∀ computed, result = some computed →
        (connector = none → computed.loadKvAsync = false) ∧
        (computed.newComputedBlocks = kv.emptyKVCacheBlocks ∨
          ∃ n, kv.getComputedBlocks request = .ok (computed.newComputedBlocks, n)))
      (computedTokens connector request kv) := by
  unfold computedTokens
  split
  · cases computes : kv.getComputedBlocks request with
    | error e => exact trivial
    | ok hit =>
      cases connector with
      | none =>
        intro computed isSome
        cases isSome
        exact ⟨fun _ => rfl, Or.inr ⟨hit.2, rfl⟩⟩
      | some connector =>
        dsimp only [bind, Except.bind]
        split
        · exact fun _ isSome => (nomatch isSome)
        · intro computed isSome
          cases isSome
          exact ⟨nofun, Or.inr ⟨hit.2, rfl⟩⟩
  · intro computed isSome
    cases isSome
    exact ⟨fun _ => rfl, Or.inl rfl⟩

section

variable (inv : (loop.queuesWith (request.requestId ::ₘ waiting)).Inv hasher)
  (stored : loop.scheduler.requests.get? request.requestId = some request)

include inv stored

theorem runRequest_admits (computed : ComputedTokens) (plan : EncoderPlan) :
    Gives (fun loop' => Admits hasher request.requestId waiting loop .start loop')
      (loop.runRequest encoders request computed plan) := by
  have isWaiting : request.status.isWaiting = true :=
    (inv.mem_waiting stored).mp (Multiset.mem_cons_self _ _)
  have hashed := (inv.life.stored _ _ stored).2
  have running : ((loop.scheduler.running ++ [request.requestId] : List Nat) : Multiset Nat) =
      request.requestId ::ₘ (loop.scheduler.running : Multiset Nat) :=
    Multiset.coe_eq_coe.mpr (List.perm_append_singleton _ _)
  have move : Queues.Move hasher (loop.queuesWith (request.requestId ::ₘ waiting))
      (.progress (startedRequest request computed))
      ⟨⟨loop.scheduler.kv, loop.scheduler.requests.set request.requestId
        (startedRequest request computed)⟩, waiting,
        ((loop.scheduler.running ++ [request.requestId] : List Nat) : Multiset Nat)⟩ := by
    rw [running]
    exact .of_start stored rfl (hashed.of_blockHashes rfl) isWaiting rfl rfl
  refine (loop.runRequest_spec request computed plan).mono ?_
  rintro loop' ⟨encoder, same, skipped⟩
  refine ⟨?_, by rw [same]; exact ⟨rfl, rfl⟩, skipped⟩
  rw [queuesWith, queuesWith, same]
  exact .single move trivial

theorem allocateWaiting_admits {computed : ComputedTokens} (numNewTokens : Int)
    (hit : computed.newComputedBlocks = loop.scheduler.kv.emptyKVCacheBlocks ∨ ∃ n,
      loop.scheduler.kv.getComputedBlocks request = .ok (computed.newComputedBlocks, n)) :
    Gives
      (fun result => Admits hasher request.requestId waiting loop .skip (loop.withKv result.2))
      (loop.scheduler.kv.allocateSlots
        (waitingSlotArgs request computed numNewTokens loop.scheduler.config)) := by
  have isWaiting : request.status.isWaiting = true :=
    (inv.mem_waiting stored).mp (Multiset.mem_cons_self _ _)
  have unfinished : request.isFinished = false :=
    (RequestStatus.isFinished_eq_false_iff _).mpr (Or.inl isWaiting)
  cases allocated : loop.scheduler.kv.allocateSlots
      (waitingSlotArgs request computed numNewTokens loop.scheduler.config) with
  | error e => exact trivial
  | ok result =>
    have step : (loop.queuesWith (request.requestId ::ₘ waiting)).life.Step hasher
        (.allocate (waitingSlotArgs request computed numNewTokens loop.scheduler.config))
        ⟨result.2, loop.scheduler.requests⟩ :=
      .allocate stored unfinished ⟨(inv.life.stored _ _ stored).2, hit⟩ allocated
    exact ⟨.single (.allocate step) trivial, ⟨rfl, rfl⟩, rfl⟩

end

include free in
theorem admitRequest_admits (inv : (loop.queuesWith (request.requestId ::ₘ waiting)).Inv hasher)
    (stored : loop.scheduler.requests.get? request.requestId = some request) :
    Gives
      (fun (admission, loop') => Admits hasher request.requestId waiting loop admission loop')
      (loop.admitRequest encoders none request) := by
  unfold admitRequest
  refine (computedTokens_meets none request loop.scheduler.kv).bind fun computed known => ?_
  cases computed with
  | none => exact ⟨.refl _, ⟨rfl, rfl⟩, rfl⟩
  | some computed =>
    obtain ⟨loadsNow, hit⟩ := known computed rfl
    refine (waitingNumNewTokens_spec request computed loop).bind ?_
    rintro ⟨plan, _⟩ ⟨encoder, rfl⟩
    have toFirst : Admits hasher request.requestId waiting loop .skip (loop.withEncoder encoder) :=
      ⟨.refl _, ⟨rfl, rfl⟩, rfl⟩
    cases plan with
    | none => exact toFirst.stop
    | some plan =>
      have invFirst : ((loop.withEncoder encoder).queuesWith (request.requestId ::ₘ waiting)).Inv
        hasher := inv
      refine (allocateWaiting_admits invFirst stored plan.numNewTokens hit).bind ?_
      rintro ⟨newBlocks, kv⟩ allocates
      have toSecond := toFirst.trans allocates
      dsimp only
      split
      · exact toSecond.stop
      · rw [loadsNow rfl, if_neg Bool.false_ne_true]
        have inv₂ := allocates.run.inv free inv
        refine (runRequest_admits inv₂ stored computed plan).bind ?_
        exact fun loop' runs => toSecond.trans runs

include free in
theorem scheduleWaitingRequest_admits {id : Nat}
    (inv : (loop.queuesWith (id ::ₘ waiting)).Inv hasher) :
    Gives (fun (admission, loop') => Admits hasher id waiting loop admission loop')
      (loop.scheduleWaitingRequest encoders none id) := by
  unfold scheduleWaitingRequest
  refine (Scheduler.find_meets id loop.scheduler).bind fun request stored => ?_
  obtain rfl : request.requestId = id := (inv.life.stored _ _ stored).1
  refine (readyRequest_moves inv stored).bind ?_
  rintro ⟨ready, s⟩ ⟨readies, isReady⟩
  cases ready with
  | none => exact readies
  | some ready =>
    obtain ⟨sameId, storedReady, -⟩ := isReady ready rfl
    have invReady := readies.run.inv free inv
    dsimp only
    split
    · exact readies
    · rw [← sameId] at storedReady invReady readies ⊢
      refine (admitRequest_admits free invReady storedReady).mono ?_
      exact fun (_, _) admits => readies.trans admits

include free in
theorem scheduleWaiting_moves (queue : List Nat) :
    ∀ {loop : ScheduleLoop H E},
      (loop.queuesWith (queue + loop.skippedWaitingRequests)).Inv hasher →
        Gives
          (fun loop' => Queues.Run hasher LifecycleOp.IsScheduling
              (loop.queuesWith (queue + loop.skippedWaitingRequests))
              (loop'.queuesWith (loop'.scheduler.waiting + loop'.skippedWaitingRequests)) ∧
            Scheduler.Static loop.scheduler loop'.scheduler)
          (loop.scheduleWaiting encoders none queue) := by
  induction queue with
  | nil => exact fun _ => ⟨.refl _, ⟨rfl, rfl⟩⟩
  | cons id rest ih =>
    intro loop inv
    rw [scheduleWaiting]
    dsimp only
    split
    · exact ⟨.refl _, ⟨rfl, rfl⟩⟩
    · rw [← Multiset.cons_coe, Multiset.cons_add] at inv ⊢
      refine (scheduleWaitingRequest_admits free inv).bind ?_
      rintro ⟨admission, loop₁⟩ ⟨run, static, skipped⟩
      have inv₁ := run.inv free inv
      rw [← skipped] at run inv₁ ⊢
      cases admission with
      | stop => exact ⟨run, ⟨static.config, static.hasher⟩⟩
      | start =>
        refine (ih inv₁).mono fun loop' moves => ?_
        exact ⟨run.trans moves.1, static.trans moves.2⟩
      | skip =>
        have aside : (rest : Multiset Nat) +
            (loop₁.scheduler.prepended id loop₁.skippedWaitingRequests : List Nat) =
              id ::ₘ ((rest : Multiset Nat) + loop₁.skippedWaitingRequests) := by
          rw [Scheduler.coe_prepended, Multiset.add_cons]
        rw [if_neg nofun] at run inv₁
        rw [← aside] at run inv₁ ⊢
        exact (ih inv₁).mono fun loop' moves => ⟨run.trans moves.1, static.trans moves.2⟩

include free in
theorem scheduleWaitingUnlessPreempted_moves (inv : loop.scheduler.queues.Inv hasher)
    (noneSkipped : loop.skippedWaitingRequests = []) :
    Gives
      (fun loop' => Queues.Run hasher LifecycleOp.IsScheduling loop.scheduler.queues
          loop'.scheduler.queues ∧ Scheduler.Static loop.scheduler loop'.scheduler)
      (loop.scheduleWaitingUnlessPreempted encoders none) := by
  unfold scheduleWaitingUnlessPreempted
  split
  · exact ⟨.refl _, .refl _⟩
  · have start : loop.queuesWith (loop.scheduler.waiting + loop.skippedWaitingRequests) =
        loop.scheduler.queues := by
      rw [noneSkipped]
      exact congrArg (Queues.mk _ · _) (add_zero _)
    rw [← start] at inv ⊢
    refine (scheduleWaiting_moves free loop.scheduler.waiting inv).bind ?_
    intro loop' moves
    have putBack : ((loop'.scheduler.prependedAll loop'.skippedWaitingRequests
        loop'.scheduler.waiting : List Nat) : Multiset Nat) =
          loop'.scheduler.waiting + loop'.skippedWaitingRequests := by
      rw [add_comm, Multiset.coe_add]
      exact Multiset.coe_eq_coe.mpr (Scheduler.prependedAll_perm _ _ _)
    have run := moves.1
    rw [← putBack] at run
    exact ⟨run, ⟨moves.2.config, moves.2.hasher⟩⟩

end ScheduleLoop

namespace Scheduler

variable {H E : Type} [DecidableEq H] {hasher : Option (BlockHasher H)} {s s' s'' : Scheduler H E}
  {A : LifecycleOp H → Prop}

/-- A part of the scheduler that is a run of moves whose labels satisfy `A`. -/
structure MovesTo (hasher : Option (BlockHasher H)) (A : LifecycleOp H → Prop)
    (s s' : Scheduler H E) : Prop where
  run : Queues.Run hasher A s.queues s'.queues
  static : Static s s'

theorem MovesTo.refl (s : Scheduler H E) : MovesTo hasher A s s := ⟨.refl _, .refl s⟩

theorem MovesTo.trans (first : MovesTo hasher A s s') (second : MovesTo hasher A s' s'') :
    MovesTo hasher A s s'' :=
  ⟨first.run.trans second.run, first.static.trans second.static⟩

variable (free : ∀ h ∈ hasher, h.CollisionFree) {encoders : EncoderCacheManager H E}

theorem advance_moves (inv : s.queues.Inv hasher) (scheduled : Nat × Int) :
    Gives (fun s' => MovesTo hasher LifecycleOp.IsScheduling s s')
      (s.advance encoders scheduled) := by
  unfold advance
  refine (find_meets scheduled.1 s).bind fun request stored => ?_
  obtain ⟨sameId, hashed⟩ := inv.life.stored _ _ stored
  rw [← sameId] at stored
  have move : Queues.Move hasher s.queues
      (.progress { request with numComputedTokens := request.numComputedTokens + scheduled.2 })
      (s.store { request with
        numComputedTokens := request.numComputedTokens + scheduled.2 }).queues :=
    .of_update stored rfl (hashed.of_blockHashes rfl) (.refl _)
  dsimp only
  split
  · exact ⟨.single move trivial, ⟨rfl, rfl⟩⟩
  · exact ⟨.single move trivial, ⟨rfl, rfl⟩⟩

include free in
theorem scheduleRequests_moves (inv : s.queues.Inv hasher) :
    Gives
      (fun loop => MovesTo hasher LifecycleOp.IsScheduling s loop.scheduler)
      (s.scheduleRequests encoders none) := by
  unfold scheduleRequests
  refine (ScheduleLoop.scheduleRunning_moves free s.running.length inv).bind ?_
  intro loop running
  refine loop.recordLoras_spec.bind ?_
  rintro _ ⟨loras, rfl⟩
  have toWaiting : ScheduleLoop.Moves hasher _ { loop with scheduledLoras := loras } :=
    running.trans ⟨.refl _, ⟨rfl, rfl⟩, rfl⟩
  refine (ScheduleLoop.scheduleWaitingUnlessPreempted_moves free
    (toWaiting.run.inv free inv) toWaiting.skipped).mono fun loop' waiting => ?_
  exact ⟨toWaiting.run.trans waiting.1, toWaiting.static.trans waiting.2⟩

include free in
theorem schedule_moves (inv : s.queues.Inv hasher) :
    Gives (fun (_, s') => MovesTo hasher LifecycleOp.IsScheduling s s')
      (s.schedule encoders none) := by
  unfold schedule
  refine (scheduleRequests_moves free inv).bind fun loop moves => ?_
  split
  · exact trivial
  · refine Meets.bind (Meets.foldlM (P := MovesTo hasher LifecycleOp.IsScheduling s) _ _
      (fun entry _ s₁ toFirst => ?_) ?_) ?_
    · exact (advance_moves (toFirst.run.inv free inv) entry).mono
        fun _ rest => toFirst.trans rest
    · exact ⟨moves.run, ⟨moves.static.config, moves.static.hasher⟩⟩
    · exact fun s' moves => ⟨moves.run, ⟨moves.static.config, moves.static.hasher⟩⟩

end Scheduler

end Kalypso.Engine
