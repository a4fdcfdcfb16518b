import Kalypso.Engine.SchedulerRuns

/-!
# The order of the waiting queue

Under the FCFS policy the waiting loop collects the requests that it puts aside in front of each
other, and puts them back as they were collected: two of them change their order.
-/

set_option autoImplicit false

namespace Kalypso.Engine

open Kalypso.Lib
open scoped List

namespace ScheduleLoop

variable {H E : Type} [DecidableEq H] {encoders : EncoderCacheManager H E}
  {loop loop' middle : ScheduleLoop H E}

/-! ## Running requests -/

/-- The loop goes on with the same configuration and skipped requests, and with the same waiting
queue as long as nothing is preempted. -/
structure KeepsWaiting (loop loop' : ScheduleLoop H E) : Prop where
  config : loop'.scheduler.config = loop.scheduler.config
  skipped : loop'.skippedWaitingRequests = loop.skippedWaitingRequests
  preempted : loop.preemptedReqs <+: loop'.preemptedReqs
  waiting : loop'.preemptedReqs = loop.preemptedReqs →
    loop'.scheduler.waiting = loop.scheduler.waiting

section

omit [DecidableEq H]

theorem KeepsWaiting.refl (loop : ScheduleLoop H E) : KeepsWaiting loop loop :=
  ⟨rfl, rfl, List.prefix_rfl, fun _ => rfl⟩

theorem KeepsWaiting.trans (first : KeepsWaiting loop middle) (second : KeepsWaiting middle loop') :
    KeepsWaiting loop loop' := by
  refine ⟨second.config.trans first.config, second.skipped.trans first.skipped,
    first.preempted.trans second.preempted, fun same => ?_⟩
  have between : middle.preemptedReqs = loop.preemptedReqs := by
    have upper := second.preempted.length_le
    rw [same] at upper
    exact (first.preempted.eq_of_length_le upper).symm
  rw [second.waiting (same.trans between.symm), first.waiting between]

/-- A part of the loop that does not touch queues, configuration and preempted requests. -/
theorem KeepsWaiting.of_eq (config : loop'.scheduler.config = loop.scheduler.config)
    (waiting : loop'.scheduler.waiting = loop.scheduler.waiting)
    (skipped : loop'.skippedWaitingRequests = loop.skippedWaitingRequests)
    (preempted : loop'.preemptedReqs = loop.preemptedReqs) : KeepsWaiting loop loop' :=
  ⟨config, skipped, preempted ▸ List.prefix_rfl, fun _ => waiting⟩

theorem TakesVictim.keeps {victim : Request H} (taken : TakesVictim loop victim loop') :
    KeepsWaiting loop loop' := by
  cases taken with
  | scheduled isPriority isLowest stored isScheduled gives =>
    unfold unschedule at gives
    dsimp only at gives
    split at gives
    · cases gives
      exact .of_eq rfl rfl rfl rfl
    · cases gives
  | unscheduled isPriority isLowest stored notScheduled | last isFcfs isLast stored =>
    exact .of_eq rfl rfl rfl rfl

theorem Preempts.keeps {victim : Request H}
    (preempts : Preempts encoders loop victim loop') : KeepsWaiting loop loop' := by
  cases preempts with
  | @intro rest s taken preempted =>
    have config : s.config = rest.scheduler.config := by
      unfold Scheduler.preemptRequest at preempted
      split at preempted
      · cases preempted
      · obtain ⟨kv, freed, same⟩ := bind_eq_ok.mp preempted
        cases same
        rfl
    refine taken.keeps.trans ⟨config, rfl, List.prefix_append _ _, fun same => ?_⟩
    exact absurd same (by simp)

theorem withKv_keeps (kv : KVCacheManager H) (loop : ScheduleLoop H E) :
    KeepsWaiting loop (loop.withKv kv) := .of_eq rfl rfl rfl rfl

end

theorem Allocates.keeps {request : Request H} {numNewTokens : Int}
    {newBlocks : Option (List (List Nat))}
    (allocates : Allocates encoders request numNewTokens loop newBlocks loop') :
    KeepsWaiting loop loop' := by
  induction allocates with
  | fits gives => exact withKv_keeps _ _
  | self gives preempts isSelf => exact (withKv_keeps _ _).trans preempts.keeps
  | other gives preempts isOther _ ih =>
    exact (withKv_keeps _ _).trans (preempts.keeps.trans ih)

theorem Turn.keeps {request : Request H} {goesOn : Bool}
    (turn : Turn encoders request loop goesOn loop') : KeepsWaiting loop loop' := by
  have passes : ∀ loop : ScheduleLoop H E, KeepsWaiting loop loop.passed :=
    fun _ => .of_eq rfl rfl rfl rfl
  have encodes : ∀ encoder, KeepsWaiting loop (loop.withEncoder encoder) :=
    fun _ => .of_eq rfl rfl rfl rfl
  cases turn with
  | awaits awaits => exact passes loop
  | idle notAwaits plans noTokens =>
    obtain ⟨encoder, rfl⟩ := (tryScheduleEncoderInputs_spec _ _ _ _).ok plans
    exact (encodes encoder).trans (passes _)
  | preempted notAwaits plans hasTokens allocates =>
    obtain ⟨encoder, rfl⟩ := (tryScheduleEncoderInputs_spec _ _ _ _).ok plans
    exact (encodes encoder).trans allocates.keeps
  | @scheduled plan encoded allocated _ newBlocks notAwaits plans hasTokens allocates allots =>
    obtain ⟨encoder, rfl⟩ := (tryScheduleEncoderInputs_spec _ _ _ _).ok plans
    refine ((encodes encoder).trans allocates.keeps).trans ?_
    obtain ⟨s, _, drops, rfl | rfl⟩ := scheduleSpecTokens_spec request plan.numNewTokens
      (allocated.scheduled request newBlocks plan.numNewTokens)
    · rw [drops] at allots
      obtain ⟨_, _, _, rfl⟩ := (allocateEncoderInputs_spec _ _ _).ok allots
      exact .of_eq rfl rfl rfl rfl
    · rw [drops] at allots
      obtain ⟨_, _, _, rfl⟩ := (allocateEncoderInputs_spec _ _ _).ok allots
      exact .of_eq rfl rfl rfl rfl

theorem scheduleRunning_keeps (bound : Nat)
    (ran : loop.scheduleRunning encoders bound = .ok loop') :
    KeepsWaiting loop loop' := by
  refine scheduleRunning_invariant (P := KeepsWaiting loop) ?_ bound (.refl loop) ran
  intro before after id request goesOn kept hasBudget isNext stored turn
  exact kept.trans turn.keeps

/-! ## Waiting requests -/

/-- An iteration over the waiting requests leaves the configuration and the skipped requests. -/
structure KeepsSkipped (loop loop' : ScheduleLoop H E) : Prop where
  config : loop'.scheduler.config = loop.scheduler.config
  skipped : loop'.skippedWaitingRequests = loop.skippedWaitingRequests

theorem updateWaitingForRemoteKv_config (hasConnector : Bool) (request : Request H)
    (s : Scheduler H E) :
    Gives (fun result => result.2.2.config = s.config)
      (updateWaitingForRemoteKv hasConnector request s) := by
  unfold updateWaitingForRemoteKv
  dsimp only
  split
  · exact trivial
  · split
    · exact rfl
    · split
      -- the transfer has failed: what was received is cached, or nothing was
      · split
        · exact Meets.any.bind fun _ _ => rfl
        · exact Meets.any.bind fun _ _ => rfl
      · split
        · exact Meets.any.bind fun _ _ => rfl
        · exact trivial

theorem readyRequest_config (hasConnector : Bool) (request : Request H) (s : Scheduler H E) :
    Gives (fun result => result.2.config = s.config)
      (readyRequest hasConnector request s) := by
  unfold readyRequest
  dsimp only
  split
  · refine (updateWaitingForRemoteKv_config hasConnector request s).bind ?_
    rintro ⟨isReady, ready, after⟩ sameConfig
    dsimp only
    split
    · exact sameConfig
    · exact sameConfig
  · split
    · exact rfl
    · exact rfl
  · exact rfl

theorem scheduleWaitingRequest_keeps (connector : Option (KVConnector H)) (id : Nat)
    (loop : ScheduleLoop H E) :
    Gives (fun result => KeepsSkipped loop result.2)
      (loop.scheduleWaitingRequest encoders connector id) := by
  unfold scheduleWaitingRequest
  refine Meets.any.bind fun request _ => ?_
  refine (readyRequest_config connector.isSome request loop.scheduler).bind ?_
  rintro ⟨ready, s⟩ sameConfig
  have readies : KeepsSkipped loop (loop.withScheduler s) := ⟨sameConfig, rfl⟩
  cases ready with
  | none => exact readies
  | some request =>
    dsimp only
    split
    · exact readies
    · unfold admitRequest
      refine Meets.any.bind fun computed _ => ?_
      cases computed with
      | none => exact readies
      | some computed =>
        refine (waitingNumNewTokens_spec request computed _).bind ?_
        rintro ⟨plan, _⟩ ⟨encoder, rfl⟩
        cases plan with
        | none => exact ⟨sameConfig, rfl⟩
        | some plan =>
          refine Meets.any.bind ?_
          rintro ⟨newBlocks, kv⟩ _
          dsimp only
          split
          · exact ⟨sameConfig, rfl⟩
          · split
            · exact ⟨sameConfig, rfl⟩
            · refine (runRequest_spec request computed plan _).bind ?_
              rintro last ⟨encoder, same, skipped⟩
              have config : last.scheduler.config = s.config := by rw [same]; rfl
              exact ⟨config.trans sameConfig, skipped⟩

/-- The requests of the queue that the loop puts aside, in the order of the queue. -/
def putAside (encoders : EncoderCacheManager H E) (connector : Option (KVConnector H)) :
    List Nat → ScheduleLoop H E → List Nat
  | [], _ => []
  | id :: rest, loop =>
      if loop.tokenBudget ≤ 0 ∨
          loop.scheduler.running.length = loop.scheduler.config.maxNumRunningReqs then []
      else
        match loop.scheduleWaitingRequest encoders connector id with
        | .ok (.skip, loop) => id :: putAside encoders connector rest { loop with
            skippedWaitingRequests := loop.scheduler.prepended id loop.skippedWaitingRequests }
        | .ok (.start, loop) => putAside encoders connector rest loop
        | .ok (.stop, _) | .error _ => []

/-- The requests put aside are collected in front of each other, and they come before what is left
of the queue. -/
theorem scheduleWaiting_putAside {connector : Option (KVConnector H)} (queue : List Nat) :
    ∀ {loop loop' : ScheduleLoop H E}, loop.scheduler.config.policy = .fcfs →
      loop.scheduleWaiting encoders connector queue = .ok loop' →
        loop'.scheduler.config = loop.scheduler.config ∧
        loop'.skippedWaitingRequests =
          (loop.putAside encoders connector queue).reverse ++
            loop.skippedWaitingRequests ∧
        (loop.putAside encoders connector queue) ++ loop'.scheduler.waiting <+
          queue := by
  induction queue with
  | nil =>
    intro loop loop' isFcfs ran
    cases ran
    exact ⟨rfl, rfl, List.Sublist.refl _⟩
  | cons id rest ih =>
    intro loop loop' isFcfs ran
    rw [scheduleWaiting] at ran
    rw [putAside]
    split at ran
    · rename_i stops
      cases ran
      rw [if_pos stops]
      exact ⟨rfl, rfl, List.Sublist.refl _⟩
    · rename_i goesOn
      rw [if_neg goesOn]
      obtain ⟨⟨admission, middle⟩, admits, next⟩ := bind_eq_ok.mp ran
      have keeps : KeepsSkipped loop middle :=
        (scheduleWaitingRequest_keeps connector id loop).ok admits
      have stillFcfs : middle.scheduler.config.policy = .fcfs := by
        rw [keeps.config]
        exact isFcfs
      rw [admits]
      cases admission with
      | stop =>
        cases next
        exact ⟨keeps.config, keeps.skipped, List.Sublist.refl _⟩
      | start =>
        obtain ⟨config, skipped, ordered⟩ := ih stillFcfs next
        refine ⟨config.trans keeps.config, ?_, ordered.cons id⟩
        rw [skipped, keeps.skipped]
      | skip =>
        have later := fun policy => ih policy next
        obtain ⟨config, skipped, ordered⟩ := later stillFcfs
        refine ⟨config.trans keeps.config, ?_, ordered.cons_cons id⟩
        have atFront : middle.scheduler.prepended id middle.skippedWaitingRequests =
            id :: loop.skippedWaitingRequests := by
          rw [Scheduler.prepended, stillFcfs, keeps.skipped]
        dsimp only at skipped ⊢
        rw [skipped, atFront, List.reverse_cons, List.append_assoc, List.singleton_append]

end ScheduleLoop

/-- Two elements of a list without duplicates stand in one order only. -/
theorem not_swapped_sublist {l : List Nat} (distinct : l.Nodup) {a b : Nat}
    (ordered : [a, b] <+ l) :
    ¬ [b, a] <+ l := by
  induction l with
  | nil => cases ordered
  | cons c l ih =>
    obtain ⟨fresh, distinct⟩ := List.nodup_cons.mp distinct
    intro swapped
    cases ordered with
    | cons _ ordered =>
      cases swapped with
      | cons _ swapped => exact ih distinct ordered swapped
      | cons_cons _ swapped => exact fresh (ordered.subset (by simp))
    | cons_cons _ ordered =>
      cases swapped with
      | cons _ swapped | cons_cons _ swapped => exact fresh (swapped.subset (by simp))

theorem reverse_append_sublist_iff {aside rest l : List Nat} (distinct : l.Nodup)
    (ordered : aside ++ rest <+ l) : aside.reverse ++ rest <+ l ↔ aside.length ≤ 1 := by
  match aside with
  | [] => simpa using ordered
  | [a] => simpa using ordered
  | a :: b :: others =>
    refine iff_of_false (fun swapped => ?_) (by simp)
    have first : [a, b] <+ l := by
      refine List.Sublist.trans ?_ ordered
      simp
    have second : [b, a] <+ l := by
      refine List.Sublist.trans ?_ swapped
      simp only [List.reverse_cons, List.append_assoc, List.singleton_append]
      exact (List.sublist_append_left [b, a] rest).trans (List.sublist_append_right _ _)
    exact not_swapped_sublist distinct first second

namespace Scheduler

variable {H E : Type} [DecidableEq H] {encoders : EncoderCacheManager H E}
  {s s' : Scheduler H E}

def putAside (encoders : EncoderCacheManager H E) (connector : Option (KVConnector H))
    (s : Scheduler H E) : List Nat :=
  match (do
    let loop ← (ScheduleLoop.init s).scheduleRunning encoders s.running.length
    loop.recordLoras) with
  | .ok loop => loop.putAside encoders connector loop.scheduler.waiting
  | .error _ => []

omit [DecidableEq H] in
theorem advance_waiting (scheduled : List (Nat × Int)) (s : Scheduler H E) :
    Gives (fun s' => s'.waiting = s.waiting)
      (scheduled.foldlM (advance encoders) s) := by
  refine Meets.foldlM scheduled s (fun entry _ before same => ?_) rfl
  unfold advance
  refine Meets.any.bind fun request _ => ?_
  dsimp only
  split
  · exact same
  · exact same

/-- Without a preemption the requests that remain keep their order if and only if at most one of
them is put aside. -/
theorem waiting_sublist_iff {connector : Option (KVConnector H)} {output : SchedulerOutput}
    (isFcfs : s.config.policy = .fcfs) (distinct : s.waiting.Nodup)
    (returns : s.schedule encoders connector = .ok (output, s'))
    (noPreemption : output.preemptedReqIds = []) :
    s'.waiting <+ s.waiting ↔ (s.putAside encoders connector).length ≤ 1 := by
  obtain ⟨last, loops, finish⟩ := bind_eq_ok.mp returns
  split at finish
  · cases finish
  · obtain ⟨advanced, advances, same⟩ := bind_eq_ok.mp finish
    cases same
    have sameWaiting := (advance_waiting _ _).ok advances
    obtain ⟨ran, runs, next⟩ := bind_eq_ok.mp loops
    obtain ⟨loop, records, schedules⟩ := bind_eq_ok.mp next
    have keeps : ScheduleLoop.KeepsWaiting (.init s) loop := by
      obtain ⟨loras, rfl⟩ := ran.recordLoras_spec.ok records
      exact (ScheduleLoop.scheduleRunning_keeps _ runs).trans (.of_eq rfl rfl rfl rfl)
    have aside : s.putAside encoders connector =
        loop.putAside encoders connector loop.scheduler.waiting := by
      simp only [putAside, runs, records, bind, Except.bind]
    have config : loop.scheduler.config.policy = .fcfs := by
      rw [keeps.config]
      exact isFcfs
    have skipped : loop.skippedWaitingRequests = [] := keeps.skipped
    unfold ScheduleLoop.scheduleWaitingUnlessPreempted at schedules
    split at schedules
    · rename_i preempts
      have same : loop = last := Except.ok.inj schedules
      have isEmpty : loop.preemptedReqs = [] := same ▸ noPreemption
      rw [isEmpty] at preempts
      cases preempts
    · rename_i noneYet
      have isEmpty : loop.preemptedReqs = [] := by simpa using noneYet
      have waiting : loop.scheduler.waiting = s.waiting := keeps.waiting isEmpty
      obtain ⟨scheduled, waits, same⟩ := bind_eq_ok.mp schedules
      cases same
      obtain ⟨sameConfig, collected, ordered⟩ :=
        ScheduleLoop.scheduleWaiting_putAside _ config waits
      have putBack : advanced.waiting = (s.putAside encoders connector).reverse ++
          scheduled.scheduler.waiting := by
        rw [sameWaiting, aside]
        simp only [ScheduleLoop.withScheduler, prependedAll, sameConfig, config, collected, skipped,
          List.append_nil]
      rw [← aside, waiting] at ordered
      change advanced.waiting <+ s.waiting ↔ _
      rw [putBack]
      exact reverse_append_sublist_iff distinct ordered

def grammarCoreRequest (id : Nat) : EngineCoreRequest :=
  { requestId := id, promptTokenIds := [1, 2],
    samplingParams := some { maxTokens := 1, structuredOutputs := true } }

def twoGrammars : Except EngineError
    (Scheduler ContentHash Unit × SchedulerOutput ×
      Scheduler ContentHash Unit) := do
  let s ← (smallScheduler smallKVCacheConfig).exec noEncoder (.add (grammarCoreRequest 1))
  let s ← s.exec noEncoder (.add (grammarCoreRequest 2))
  let (output, s') ← s.schedule noEncoder none
  return (s, output, s')

/-- They are put back in the other order. -/
theorem twoGrammars_swapped :
    ∃ s s' output, Trace (Step noEncoder) (smallScheduler smallKVCacheConfig)
        [.add (grammarCoreRequest 1), .add (grammarCoreRequest 2)] s ∧
      s.config.policy = .fcfs ∧ s.schedule noEncoder none = .ok (output, s') ∧
      output.preemptedReqIds = [] ∧ s.waiting = [1, 2] ∧ s'.waiting = [2, 1] := by
  have runs : ∃ result, twoGrammars = .ok result ∧ result.1.config.policy = .fcfs ∧
      result.2.1.preemptedReqIds = [] ∧ result.1.waiting = [1, 2] ∧
      result.2.2.waiting = [2, 1] := by
    decide +kernel
  obtain ⟨⟨s, output, s'⟩, runs, isFcfs, noPreemption, before, after⟩ := runs
  obtain ⟨first, adds, runs⟩ := bind_eq_ok.mp runs
  obtain ⟨second, adds', runs⟩ := bind_eq_ok.mp runs
  obtain ⟨⟨output₁, last⟩, schedules, same⟩ := bind_eq_ok.mp runs
  cases same
  have fresh : ∀ old, first.requests.get? 2 = some old → old.isFinished = true := by
    intro old found
    cases adds
    cases found
  refine ⟨s, s', output, .cons ⟨fun _ found => (nomatch found), adds⟩
    (.cons ⟨fresh, adds'⟩ (.nil s)), isFcfs, schedules, noPreemption, before, after⟩

def oneGrammar : Except EngineError
    (Scheduler ContentHash Unit × SchedulerOutput ×
      Scheduler ContentHash Unit) := do
  let s ← (smallScheduler smallKVCacheConfig).exec noEncoder (.add (grammarCoreRequest 1))
  let s ← s.exec noEncoder (.add pinnedCoreRequest)
  let (output, s') ← s.schedule noEncoder none
  return (s, output, s')

theorem waiting_sublist_oneGrammar :
    ∃ (s s' : Scheduler ContentHash Unit) (output : SchedulerOutput),
      s.schedule noEncoder none = .ok (output, s') ∧ s.waiting = [1, 7] ∧ s'.waiting = [1] ∧
      s'.waiting <+ s.waiting := by
  have runs : ∃ result, oneGrammar = .ok result ∧ result.1.config.policy = .fcfs ∧
      result.2.1.preemptedReqIds = [] ∧ result.1.waiting = [1, 7] ∧ result.2.2.waiting = [1] ∧
      (result.1.putAside noEncoder none).length ≤ 1 := by
    decide +kernel
  obtain ⟨⟨s, output, s'⟩, runs, isFcfs, noPreemption, before, after, atMostOne⟩ := runs
  obtain ⟨first, adds, runs⟩ := bind_eq_ok.mp runs
  obtain ⟨second, adds', runs⟩ := bind_eq_ok.mp runs
  obtain ⟨⟨output₁, last⟩, schedules, same⟩ := bind_eq_ok.mp runs
  cases same
  have distinct : s.waiting.Nodup := by
    rw [before]
    decide
  exact ⟨s, s', output, schedules, before, after,
    (waiting_sublist_iff isFcfs distinct schedules noPreemption).mpr atMostOne⟩

end Scheduler

end Kalypso.Engine
