import Kalypso.Engine.Scheduler

/-!
# The turns of the running loop

What one iteration of the loop over the running requests can do, as a relation with one constructor
for each way it ends, and the loop as the sequence of its turns.  Facts about the loop are then
inductions over these relations.
-/

set_option autoImplicit false

namespace Kalypso.Engine

open Kalypso.Lib

theorem Scheduler.find_meets {H E : Type} (id : Nat) (s : Scheduler H E) :
    Gives (fun request => s.requests.get? id = some request) (s.find id) := by
  unfold find
  split
  · rename_i request found
    exact found
  · exact trivial

namespace ScheduleLoop

variable {H E : Type} [DecidableEq H]

inductive TakesVictim (loop : ScheduleLoop H E) : Request H → ScheduleLoop H E → Prop
  | scheduled {id : Nat} {victim : Request H} {rest : ScheduleLoop H E} :
      loop.scheduler.config.policy = .priority →
      lowestPriority loop.scheduler.requests loop.scheduler.running = some id →
      loop.scheduler.requests.get? id = some victim → id ∈ loop.scheduledRunningReqs →
      (loop.withScheduler { loop.scheduler with
        running := loop.scheduler.running.erase id }).unschedule victim = .ok rest →
      TakesVictim loop victim rest
  | unscheduled {id : Nat} {victim : Request H} :
      loop.scheduler.config.policy = .priority →
      lowestPriority loop.scheduler.requests loop.scheduler.running = some id →
      loop.scheduler.requests.get? id = some victim → id ∉ loop.scheduledRunningReqs →
      TakesVictim loop victim
        (loop.withScheduler { loop.scheduler with running := loop.scheduler.running.erase id })
  | last {id : Nat} {victim : Request H} :
      loop.scheduler.config.policy = .fcfs → loop.scheduler.running.getLast? = some id →
      loop.scheduler.requests.get? id = some victim →
      TakesVictim loop victim
        (loop.withScheduler { loop.scheduler with running := loop.scheduler.running.dropLast })

/-- A victim is taken out of the running list and put back into the waiting queue. -/
inductive Preempts (encoders : EncoderCacheManager H E) (loop : ScheduleLoop H E) :
    Request H → ScheduleLoop H E → Prop
  | intro {victim : Request H} {rest : ScheduleLoop H E} {s : Scheduler H E} :
      TakesVictim loop victim rest →
      rest.scheduler.preemptRequest encoders victim = .ok s →
      Preempts encoders loop victim { rest.withScheduler s with
        preemptedReqs := rest.preemptedReqs ++ [victim.requestId] }

/-- The inner loop: the slots that the request got, if it was not preempted itself. -/
inductive Allocates (encoders : EncoderCacheManager H E) (request : Request H)
    (numNewTokens : Int) :
    ScheduleLoop H E → Option (List (List Nat)) → ScheduleLoop H E → Prop
  | fits {loop : ScheduleLoop H E} {newBlocks : List (List Nat)} {kv : KVCacheManager H} :
      loop.scheduler.kv.allocateSlots (runningSlotArgs request numNewTokens loop.scheduler) =
        .ok (some newBlocks, kv) →
      Allocates encoders request numNewTokens loop (some newBlocks) (loop.withKv kv)
  | self {loop loop' : ScheduleLoop H E} {kv : KVCacheManager H} {victim : Request H} :
      loop.scheduler.kv.allocateSlots (runningSlotArgs request numNewTokens loop.scheduler) =
        .ok (none, kv) →
      Preempts encoders (loop.withKv kv) victim loop' →
      victim.requestId = request.requestId →
      Allocates encoders request numNewTokens loop none loop'
  | other {loop middle loop' : ScheduleLoop H E} {kv : KVCacheManager H} {victim : Request H}
      {newBlocks : Option (List (List Nat))} :
      loop.scheduler.kv.allocateSlots (runningSlotArgs request numNewTokens loop.scheduler) =
        .ok (none, kv) →
      Preempts encoders (loop.withKv kv) victim middle →
      victim.requestId ≠ request.requestId →
      Allocates encoders request numNewTokens middle newBlocks loop' →
      Allocates encoders request numNewTokens loop newBlocks loop'

omit [DecidableEq H] in
theorem takesVictim_of_ok {loop rest : ScheduleLoop H E} {victim : Request H}
    (taken : loop.takeVictim = .ok (victim, rest)) : TakesVictim loop victim rest := by
  have stored : ∀ {id : Nat} {request : Request H}, loop.scheduler.find id = .ok request →
      loop.scheduler.requests.get? id = some request := by
    intro id request found
    exact (Scheduler.find_meets id loop.scheduler).ok found
  unfold takeVictim at taken
  split at taken
  · rename_i isPriority
    split at taken
    · cases taken
    · rename_i id isLowest
      obtain ⟨request, found, rest'⟩ := bind_eq_ok.mp taken
      dsimp only at rest'
      split at rest'
      · rename_i isScheduled
        obtain ⟨unscheduled, gives, same⟩ := bind_eq_ok.mp rest'
        cases same
        exact .scheduled isPriority isLowest (stored found) isScheduled gives
      · rename_i notScheduled
        cases rest'
        exact .unscheduled isPriority isLowest (stored found) notScheduled
  · rename_i isFcfs
    split at taken
    · cases taken
    · rename_i id isLast
      obtain ⟨request, found, same⟩ := bind_eq_ok.mp taken
      cases same
      exact .last isFcfs isLast (stored found)

variable {encoders : EncoderCacheManager H E}

theorem allocates_of_ok {request : Request H} {numNewTokens : Int} (bound : Nat) :
    ∀ {loop loop' : ScheduleLoop H E} {newBlocks : Option (List (List Nat))},
      loop.allocateOrPreempt encoders request numNewTokens bound =
        .ok (newBlocks, loop') →
      Allocates encoders request numNewTokens loop newBlocks loop' := by
  induction bound with
  | zero =>
    intro loop loop' newBlocks allocated
    cases allocated
  | succ n ih =>
    intro loop loop' newBlocks allocated
    rw [allocateOrPreempt] at allocated
    obtain ⟨⟨slots, kv⟩, gives, next⟩ := bind_eq_ok.mp allocated
    cases slots with
    | some slots =>
      cases next
      exact .fits gives
    | none =>
      obtain ⟨⟨victim, rest⟩, taken, next⟩ := bind_eq_ok.mp next
      obtain ⟨s, preempted, next⟩ := bind_eq_ok.mp next
      have preempts := Preempts.intro (takesVictim_of_ok taken) preempted
      dsimp only at next
      split at next
      · rename_i isSelf
        cases next
        exact .self gives preempts isSelf
      · rename_i isOther
        exact .other gives preempts isOther (ih next)

/-! ## What the parts of an iteration change -/

section

omit [DecidableEq H]

def withEncoder (encoder : E) (loop : ScheduleLoop H E) : ScheduleLoop H E :=
  loop.withScheduler { loop.scheduler with encoder := encoder }

theorem tryScheduleEncoderInputs_spec (request : Request H) (numComputedTokens numNewTokens : Int)
    (loop : ScheduleLoop H E) :
    Gives (fun (_, loop') => ∃ encoder, loop' = loop.withEncoder encoder)
      (loop.tryScheduleEncoderInputs encoders request numComputedTokens
        numNewTokens) := by
  unfold tryScheduleEncoderInputs
  split
  · exact Meets.any.bind fun (_, encoder) _ => ⟨encoder, rfl⟩
  · exact ⟨loop.scheduler.encoder, rfl⟩

theorem allocateEncoderInputs_spec (request : Request H) (plan : EncoderPlan)
    (loop : ScheduleLoop H E) :
    Gives (fun loop' => ∃ encoder inputs budget, loop' = { loop.withEncoder encoder with
        scheduledEncoderInputs := inputs
        encoderComputeBudget := budget })
      (loop.allocateEncoderInputs encoders request plan) := by
  unfold allocateEncoderInputs
  refine Meets.any.bind fun _ _ => Meets.any.bind fun encoder _ => ?_
  dsimp only
  split
  · exact ⟨encoder, _, _, rfl⟩
  · exact ⟨encoder, _, _, rfl⟩

theorem scheduleSpecTokens_spec (request : Request H) (numNewTokens : Int)
    (loop : ScheduleLoop H E) :
    ∃ s drafts, loop.scheduleSpecTokens request numNewTokens =
        { loop.withScheduler s with scheduledSpecDecodeTokens := drafts } ∧
      (s = loop.scheduler ∨ s = loop.scheduler.store { request with specTokenIds := [] }) := by
  unfold scheduleSpecTokens
  split
  · exact ⟨_, _, rfl, Or.inl rfl⟩
  · dsimp only
    split
    · exact ⟨_, _, rfl, Or.inr rfl⟩
    · exact ⟨_, _, rfl, Or.inr rfl⟩

theorem recordLoras_spec (loop : ScheduleLoop H E) :
    Gives (fun loop' => ∃ loras, loop' = { loop with scheduledLoras := loras })
      loop.recordLoras := by
  unfold recordLoras
  split
  · exact ⟨_, rfl⟩
  · dsimp only
    split
    · exact trivial
    · exact ⟨_, rfl⟩

theorem waitingNumNewTokens_spec (request : Request H) (computed : ComputedTokens)
    (loop : ScheduleLoop H E) :
    Gives (fun (_, loop') => ∃ encoder, loop' = loop.withEncoder encoder)
      (loop.waitingNumNewTokens encoders request computed) := by
  unfold waitingNumNewTokens
  dsimp only
  split
  · split
    · exact trivial
    · exact ⟨loop.scheduler.encoder, rfl⟩
  · split
    · exact ⟨loop.scheduler.encoder, rfl⟩
    · split
      · exact trivial
      · refine (tryScheduleEncoderInputs_spec request _ _ loop).bind ?_
        rintro ⟨plan, _⟩ plans
        dsimp only
        split
        · exact plans
        · exact plans

theorem runRequest_spec (request : Request H) (computed : ComputedTokens) (plan : EncoderPlan)
    (loop : ScheduleLoop H E) :
    Gives (fun loop' => ∃ encoder, loop'.scheduler =
          { loop.scheduler.store (startedRequest request computed) with
            running := loop.scheduler.running ++ [request.requestId], encoder := encoder } ∧
        loop'.skippedWaitingRequests = loop.skippedWaitingRequests)
      (loop.runRequest encoders request computed plan) := by
  unfold runRequest
  dsimp only
  split
  · refine (allocateEncoderInputs_spec _ plan _).mono ?_
    rintro _ ⟨encoder, _, _, rfl⟩
    exact ⟨encoder, rfl, rfl⟩
  · refine (allocateEncoderInputs_spec _ plan _).mono ?_
    rintro _ ⟨encoder, _, _, rfl⟩
    exact ⟨encoder, rfl, rfl⟩
  · exact trivial

end

/-! ## One turn -/

def AwaitsLastTokens (request : Request H) : Prop :=
  0 < request.numOutputPlaceholders ∧ (request.numPromptTokens : Int) + request.maxTokens ≤
    request.numComputedTokens + 2 - request.numOutputPlaceholders

def scheduled (request : Request H) (newBlocks : List (List Nat)) (numNewTokens : Int)
    (loop : ScheduleLoop H E) : ScheduleLoop H E :=
  { loop with
    scheduledRunningReqs := loop.scheduledRunningReqs ++ [request.requestId]
    reqToNewBlocks := loop.reqToNewBlocks.set request.requestId newBlocks
    numScheduledTokens := loop.numScheduledTokens.set request.requestId numNewTokens
    tokenBudget := loop.tokenBudget - numNewTokens
    reqIndex := loop.reqIndex + 1 }

def passed (loop : ScheduleLoop H E) : ScheduleLoop H E :=
    { loop with reqIndex := loop.reqIndex + 1 }

/-- One iteration: the request is passed over, preempted itself or scheduled. -/
inductive Turn (encoders : EncoderCacheManager H E) (request : Request H)
    (loop : ScheduleLoop H E) : Bool → ScheduleLoop H E → Prop
  | awaits : AwaitsLastTokens request → Turn encoders request loop true loop.passed
  | idle {plan : EncoderPlan} {encoded : ScheduleLoop H E} : ¬ AwaitsLastTokens request →
      loop.tryScheduleEncoderInputs encoders request request.numComputedTokens
        (loop.runningNumNewTokens request) = .ok (plan, encoded) →
      plan.numNewTokens = 0 → Turn encoders request loop true encoded.passed
  | preempted {plan : EncoderPlan} {encoded loop' : ScheduleLoop H E} : ¬ AwaitsLastTokens request →
      loop.tryScheduleEncoderInputs encoders request request.numComputedTokens
        (loop.runningNumNewTokens request) = .ok (plan, encoded) →
      plan.numNewTokens ≠ 0 →
      Allocates encoders request plan.numNewTokens encoded none loop' →
      Turn encoders request loop false loop'
  | scheduled {plan : EncoderPlan} {encoded allocated loop' : ScheduleLoop H E}
      {newBlocks : List (List Nat)} : ¬ AwaitsLastTokens request →
      loop.tryScheduleEncoderInputs encoders request request.numComputedTokens
        (loop.runningNumNewTokens request) = .ok (plan, encoded) →
      plan.numNewTokens ≠ 0 →
      Allocates encoders request plan.numNewTokens encoded (some newBlocks) allocated →
      ((allocated.scheduled request newBlocks plan.numNewTokens).scheduleSpecTokens request
        plan.numNewTokens).allocateEncoderInputs encoders
          { request with specTokenIds := [] } plan = .ok loop' →
      Turn encoders request loop true loop'

theorem turn_of_ok {request : Request H} {loop loop' : ScheduleLoop H E} {goesOn : Bool}
    (ran : loop.scheduleRunningRequest encoders request = .ok (goesOn, loop')) :
    Turn encoders request loop goesOn loop' := by
  unfold scheduleRunningRequest at ran
  dsimp only at ran
  split at ran
  · rename_i awaits
    cases ran
    exact .awaits awaits
  · rename_i notAwaits
    obtain ⟨⟨plan, encoded⟩, plans, next⟩ := bind_eq_ok.mp ran
    dsimp only at next
    split at next
    · rename_i noTokens
      cases next
      exact .idle notAwaits plans noTokens
    · rename_i hasTokens
      obtain ⟨⟨newBlocks, allocated⟩, allocates, next⟩ := bind_eq_ok.mp next
      have allocates := allocates_of_ok _ allocates
      cases newBlocks with
      | none =>
        cases next
        exact .preempted notAwaits plans hasTokens allocates
      | some newBlocks =>
        obtain ⟨last, encodes, same⟩ := bind_eq_ok.mp next
        cases same
        exact .scheduled notAwaits plans hasTokens allocates encodes

/-! ## The loop -/

theorem scheduleRunning_invariant {P : ScheduleLoop H E → Prop}
    (keeps : ∀ {loop loop' : ScheduleLoop H E} {id : Nat} {request : Request H} {goesOn : Bool},
      P loop → 0 < loop.tokenBudget → loop.scheduler.running[loop.reqIndex]? = some id →
      loop.scheduler.requests.get? id = some request →
      Turn encoders request loop goesOn loop' → P loop') (bound : Nat) :
    ∀ {loop loop' : ScheduleLoop H E}, P loop →
      loop.scheduleRunning encoders bound = .ok loop' → P loop' := by
  induction bound with
  | zero =>
    intro loop loop' before ran
    cases ran
    exact before
  | succ n ih =>
    intro loop loop' before ran
    rw [scheduleRunning] at ran
    split at ran
    · cases ran
      exact before
    · rename_i hasBudget
      split at ran
      · cases ran
        exact before
      · rename_i id isNext
        obtain ⟨request, found, next⟩ := bind_eq_ok.mp ran
        obtain ⟨⟨goesOn, middle⟩, turns, next⟩ := bind_eq_ok.mp next
        have stored := (Scheduler.find_meets id loop.scheduler).ok found
        have after := keeps before (by omega) isNext stored (turn_of_ok turns)
        cases goesOn with
        | false =>
          cases next
          exact after
        | true => exact ih after next

end ScheduleLoop

end Kalypso.Engine
