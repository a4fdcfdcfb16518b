import Kalypso.Engine.WaitingOrder

/-!
# Every running request gets its turn

The loop over the running requests keeps `req_index` in front of the requests that it has examined.
A preemption moves the requests behind the victim forward; the index follows if the victim was
scheduled in this step, but not if it was passed over.
-/

set_option autoImplicit false

namespace Kalypso.Engine

open Kalypso.Lib

/-- Of two running requests, the one with the larger rank is preempted. -/
def Request.rank {H : Type} (request : Request H) : Int × Int :=
  (request.priority, request.arrivalTime)

namespace ScheduleLoop

variable {H E : Type} {encoders : EncoderCacheManager H E} {loop loop' : ScheduleLoop H E}

/-- The loop over the running requests with the requests that it examines, and whether it ends with
the preemption of the one that it examines. -/
def runningTurns [DecidableEq H] (encoders : EncoderCacheManager H E) :
    Nat → ScheduleLoop H E → Except EngineError ((List Nat × Bool) × ScheduleLoop H E)
  | 0, loop => .ok (([], false), loop)
  | n + 1, loop =>
      if loop.tokenBudget ≤ 0 then .ok (([], false), loop)
      else
        match loop.scheduler.running[loop.reqIndex]? with
        | none => .ok (([], false), loop)
        | some id => do
            let request ← loop.scheduler.find id
            let (goesOn, loop) ← loop.scheduleRunningRequest encoders request
            if goesOn then
              let ((turns, preempted), last) ← runningTurns encoders n loop
              return ((id :: turns, preempted), last)
            else return (([id], true), loop)

theorem runningTurns_erase [DecidableEq H] (n : Nat) (loop : ScheduleLoop H E) :
    (loop.runningTurns encoders n).map Prod.snd =
      loop.scheduleRunning encoders n := by
  induction n generalizing loop with
  | zero => rfl
  | succ n ih =>
    rw [runningTurns, scheduleRunning]
    split
    · rfl
    · cases loop.scheduler.running[loop.reqIndex]? with
      | none => rfl
      | some id =>
        dsimp only
        rw [Lib.map_bind]
        congr 1
        funext request
        rw [Lib.map_bind]
        congr 1
        funext result
        obtain ⟨goesOn, middle⟩ := result
        cases goesOn with
        | false => rfl
        | true =>
          dsimp only
          rw [if_pos rfl, if_pos rfl, Lib.map_bind, ← ih middle]
          cases middle.runningTurns encoders n with
          | error e => rfl
          | ok turns => rfl

/-! ## What the index stands for -/

def kept (seen preempted : List Nat) : List Nat :=
  seen.filter fun id => id ∉ preempted

/-- Requests are stored under their own ids, and their ranks are given. -/
structure Keyed (rank : Nat → Option (Int × Int)) (requests : Dict Nat (Request H)) : Prop where
  own : ∀ id request, requests.get? id = some request → request.requestId = id
  ranks : ∀ id, (requests.get? id).map Request.rank = rank id

/-- The running list starts with the examined requests that are still running, as many as the index
says, and goes on with `rest`. -/
structure Examined (rank : Nat → Option (Int × Int)) (start seen rest : List Nat)
    (loop : ScheduleLoop H E) : Prop where
  keyed : Keyed rank loop.scheduler.requests
  sublist : loop.scheduler.running.Sublist start
  running : loop.scheduler.running = kept seen loop.preemptedReqs ++ rest
  index : loop.reqIndex = (kept seen loop.preemptedReqs).length
  distinct : (seen ++ rest).Nodup
  fresh : ∀ id ∈ rest, id ∉ loop.preemptedReqs
  listed : ∀ id ∈ start, id ∈ loop.scheduler.running ∨ id ∈ loop.preemptedReqs
  scheduledOnce : loop.scheduledRunningReqs.Nodup
  scheduled : ∀ id ∈ loop.scheduledRunningReqs, id ∈ kept seen loop.preemptedReqs

variable {rank : Nat → Option (Int × Int)} {start seen rest : List Nat}

theorem Examined.congr (examined : Examined rank start seen rest loop)
    (keyed : Keyed rank loop'.scheduler.requests)
    (running : loop'.scheduler.running = loop.scheduler.running)
    (index : loop'.reqIndex = loop.reqIndex) (preempted : loop'.preemptedReqs = loop.preemptedReqs)
    (scheduled : loop'.scheduledRunningReqs = loop.scheduledRunningReqs) :
    Examined rank start seen rest loop' where
  keyed := keyed
  sublist := running ▸ examined.sublist
  running := by rw [running, preempted, examined.running]
  index := by rw [index, preempted, examined.index]
  distinct := examined.distinct
  fresh := by
    rw [preempted]
    exact examined.fresh
  listed := by
    rw [running, preempted]
    exact examined.listed
  scheduledOnce := by
    rw [scheduled]
    exact examined.scheduledOnce
  scheduled := by
    rw [scheduled, preempted]
    exact examined.scheduled

theorem Examined.withKv (examined : Examined rank start seen rest loop) (kv : KVCacheManager H) :
    Examined rank start seen rest (loop.withKv kv) :=
  examined.congr examined.keyed rfl rfl rfl rfl

variable {request : Request H} {id : Nat}

theorem mem_kept {preempted : List Nat} :
    id ∈ kept seen preempted ↔ id ∈ seen ∧ id ∉ preempted := by
  simp [kept]

theorem nodup_kept (distinct : (seen ++ rest).Nodup) (preempted : List Nat) :
    (kept seen preempted).Nodup :=
  (List.nodup_append.mp distinct).1.filter _

theorem kept_append (distinct : (seen ++ rest).Nodup) (preempted : List Nat) (v : Nat) :
    kept seen (preempted ++ [v]) = (kept seen preempted).erase v := by
  rw [(nodup_kept distinct preempted).erase_eq_filter]
  simp only [kept, List.filter_filter, List.mem_append, List.mem_singleton, not_or]
  apply List.filter_congr
  intro id _
  by_cases isVictim : id = v
  · simp [isVictim]
  · simp [isVictim]

section Preemption

variable {v : Nat} (examined : Examined rank start seen rest loop)
  (keyed : Keyed rank loop'.scheduler.requests)
  (running : loop'.scheduler.running = loop.scheduler.running.erase v)
  (preempted : loop'.preemptedReqs = loop.preemptedReqs ++ [v])

include examined running preempted

theorem Examined.listed_erase :
    ∀ id ∈ start, id ∈ loop'.scheduler.running ∨ id ∈ loop'.preemptedReqs := by
  intro id isStart
  rw [running, preempted, List.mem_append, List.mem_singleton]
  rcases examined.listed id isStart with isRunning | isPreempted
  · by_cases isVictim : id = v
    · exact Or.inr (Or.inr isVictim)
    · exact Or.inl ((List.mem_erase_of_ne isVictim).mpr isRunning)
  · exact Or.inr (Or.inl isPreempted)

include keyed

theorem Examined.preemptKept (isKept : v ∈ kept seen loop.preemptedReqs)
    (index : loop'.reqIndex = loop.reqIndex - 1)
    (scheduled : loop'.scheduledRunningReqs = loop.scheduledRunningReqs.erase v) :
    Examined rank start seen rest loop' where
  keyed := keyed
  sublist := running ▸ List.erase_sublist.trans examined.sublist
  running := by
    rw [running, preempted, kept_append examined.distinct, examined.running,
      List.erase_append_left _ isKept]
  index := by
    rw [index, preempted, kept_append examined.distinct, List.length_erase_of_mem isKept,
      examined.index]
  distinct := examined.distinct
  fresh := by
    intro id isRest
    rw [preempted, List.mem_append, List.mem_singleton, not_or]
    refine ⟨examined.fresh id isRest, fun isVictim => ?_⟩
    have disjoint := (List.nodup_append.mp examined.distinct).2.2
    exact disjoint v (mem_kept.mp isKept).1 id isRest isVictim.symm
  listed := examined.listed_erase running preempted
  scheduledOnce := by
    rw [scheduled]
    exact examined.scheduledOnce.erase v
  scheduled := by
    intro id isScheduled
    rw [scheduled] at isScheduled
    obtain ⟨different, wasScheduled⟩ := examined.scheduledOnce.mem_erase_iff.mp isScheduled
    rw [preempted, kept_append examined.distinct, List.mem_erase_of_ne different]
    exact examined.scheduled id wasScheduled

theorem Examined.preemptRest (isRest : v ∈ rest) (index : loop'.reqIndex = loop.reqIndex)
    (scheduled : loop'.scheduledRunningReqs = loop.scheduledRunningReqs) :
    Examined rank start seen (rest.erase v) loop' := by
  have disjoint := (List.nodup_append.mp examined.distinct).2.2
  have unseen : v ∉ kept seen loop.preemptedReqs := fun isKept =>
    disjoint v (mem_kept.mp isKept).1 v isRest rfl
  have sameKept : kept seen loop'.preemptedReqs = kept seen loop.preemptedReqs := by
    rw [preempted, kept_append examined.distinct, List.erase_of_not_mem unseen]
  have restDistinct := (List.nodup_append.mp examined.distinct).2.1
  exact {
    keyed := keyed
    sublist := running ▸ List.erase_sublist.trans examined.sublist
    running := by rw [running, sameKept, examined.running, List.erase_append_right _ unseen]
    index := by rw [index, sameKept, examined.index]
    distinct := examined.distinct.sublist ((List.Sublist.refl _).append List.erase_sublist)
    fresh := by
      intro id isLater
      obtain ⟨different, isRest⟩ := restDistinct.mem_erase_iff.mp isLater
      rw [preempted, List.mem_append, List.mem_singleton, not_or]
      exact ⟨examined.fresh id isRest, different⟩
    listed := examined.listed_erase running preempted
    scheduledOnce := by
      rw [scheduled]
      exact examined.scheduledOnce
    scheduled := by
      rw [scheduled, sameKept]
      exact examined.scheduled }

end Preemption

/-! ## One turn -/

theorem Keyed.store {s : Scheduler H E} (keyed : Keyed rank s.requests) (request : Request H)
    (isRank : some request.rank = rank request.requestId) :
    Keyed rank (s.store request).requests := by
  have stored := Dict.get?_set_self s.requests request.requestId request
  constructor
  · intro id other found
    by_cases isSame : id = request.requestId
    · subst isSame
      cases stored.symm.trans found
      rfl
    · rw [Scheduler.store, Dict.get?_set_of_ne _ _ isSame] at found
      exact keyed.own id other found
  · intro id
    by_cases isSame : id = request.requestId
    · subst isSame
      exact (congrArg (Option.map Request.rank) stored).trans isRank
    · rw [Scheduler.store, Dict.get?_set_of_ne _ _ isSame]
      exact keyed.ranks id

theorem preemptRequest_spec {s s' : Scheduler H E} {victim : Request H}
    (preempted : s.preemptRequest encoders victim = .ok s') (keyed : Keyed rank s.requests)
    (stored : s.requests.get? victim.requestId = some victim) :
    Keyed rank s'.requests ∧ s'.running = s.running := by
  have isRank := keyed.ranks victim.requestId
  rw [stored] at isRank
  unfold Scheduler.preemptRequest at preempted
  split at preempted
  · cases preempted
  · obtain ⟨kv, freed, same⟩ := bind_eq_ok.mp preempted
    cases same
    exact ⟨keyed.store _ isRank, rfl⟩

theorem dropLast_eq_erase {l : List Nat} {v : Nat} (distinct : l.Nodup)
    (isLast : l.getLast? = some v) : l.dropLast = l.erase v := by
  have split : l = l.dropLast ++ [v] := (List.dropLast_append_getLast? v isLast).symm
  rw [split] at distinct
  have fresh : v ∉ l.dropLast := fun earlier =>
    (List.nodup_append.mp distinct).2.2 v earlier v List.mem_cons_self rfl
  conv_rhs => rw [split]
  rw [List.erase_append_right _ fresh, List.erase_cons_head, List.append_nil]

/-- The victim that the priority policy takes in this state was not passed over: it is scheduled in
this step, or the loop has not come to it yet. -/
def SparesPassed (loop : ScheduleLoop H E) : Prop :=
  loop.scheduler.config.policy = .priority →
    ∀ id, lowestPriority loop.scheduler.requests loop.scheduler.running = some id →
      id ∈ loop.scheduledRunningReqs ∨ id ∈ loop.scheduler.running.drop loop.reqIndex

theorem Examined.drop_running (examined : Examined rank start seen rest loop) :
    loop.scheduler.running.drop loop.reqIndex = rest := by
  rw [examined.running, examined.index, List.drop_left]

theorem Examined.getElem? (examined : Examined rank start seen rest loop) :
    loop.scheduler.running[loop.reqIndex]? = rest.head? := by
  rw [examined.running, examined.index, List.getElem?_append_right (Nat.le_refl _), Nat.sub_self,
    List.head?_eq_getElem?]

/-- A preemption of another request than the one at the index, that was not passed over. -/
theorem Preempts.examined {victim : Request H}
    (preempts : Preempts encoders loop victim loop')
    (examined : Examined rank start seen (id :: rest) loop) (isOther : victim.requestId ≠ id)
    (spares : loop.SparesPassed) :
    ∃ rest', rest'.length ≤ rest.length ∧ Examined rank start seen (id :: rest') loop' := by
  have stays : (id :: rest).erase victim.requestId = id :: rest.erase victim.requestId :=
    List.erase_cons_tail (by simpa using Ne.symm isOther)
  cases preempts with
  | @intro taken s takes preempted =>
    cases takes with
    | @scheduled v _ _ isPriority isLowest stored isScheduled gives =>
      obtain rfl := examined.keyed.own v victim stored
      unfold unschedule at gives
      dsimp only at gives
      split at gives
      · cases gives
        obtain ⟨keyed, running⟩ := preemptRequest_spec preempted examined.keyed stored
        have isKept := examined.scheduled _ isScheduled
        exact ⟨rest, Nat.le_refl _, examined.preemptKept keyed running rfl isKept rfl rfl⟩
      · cases gives
    | @unscheduled v _ isPriority isLowest stored notScheduled =>
      obtain rfl := examined.keyed.own v victim stored
      obtain ⟨keyed, running⟩ := preemptRequest_spec preempted examined.keyed stored
      have isRest := (spares isPriority _ isLowest).resolve_left notScheduled
      rw [examined.drop_running] at isRest
      refine ⟨rest.erase victim.requestId, List.length_erase_le, ?_⟩
      rw [← stays]
      exact examined.preemptRest keyed running rfl isRest rfl rfl
    | @last v _ isFcfs isLast stored =>
      obtain rfl := examined.keyed.own v victim stored
      obtain ⟨keyed, running⟩ := preemptRequest_spec preempted examined.keyed stored
      have distinct : loop.scheduler.running.Nodup := by
        rw [examined.running]
        exact examined.distinct.sublist (List.filter_sublist.append (List.Sublist.refl _))
      have isRest : victim.requestId ∈ id :: rest := by
        rw [examined.running, List.getLast?_append_cons] at isLast
        exact List.mem_of_getLast? isLast
      have erased := running.trans (dropLast_eq_erase distinct isLast)
      refine ⟨rest.erase victim.requestId, List.length_erase_le, ?_⟩
      rw [← stays]
      exact examined.preemptRest keyed erased rfl isRest rfl rfl

theorem kept_snoc (seen : List Nat) {preempted : List Nat} (fresh : id ∉ preempted) :
    kept (seen ++ [id]) preempted = kept seen preempted ++ [id] := by
  simp [kept, fresh]

/-- The request at the index is examined: it is passed over, or scheduled. -/
theorem Examined.snoc (examined : Examined rank start seen (id :: rest) loop)
    (keyed : Keyed rank loop'.scheduler.requests)
    (running : loop'.scheduler.running = loop.scheduler.running)
    (index : loop'.reqIndex = loop.reqIndex + 1)
    (preempted : loop'.preemptedReqs = loop.preemptedReqs)
    (scheduled : loop'.scheduledRunningReqs = loop.scheduledRunningReqs ∨
      loop'.scheduledRunningReqs = loop.scheduledRunningReqs ++ [id]) :
    Examined rank start (seen ++ [id]) rest loop' := by
  have fresh : id ∉ loop.preemptedReqs := examined.fresh id List.mem_cons_self
  have unseen : id ∉ seen := fun isSeen =>
    (List.nodup_append.mp examined.distinct).2.2 id isSeen id List.mem_cons_self rfl
  have notScheduled : id ∉ loop.scheduledRunningReqs := fun isScheduled =>
    unseen (mem_kept.mp (examined.scheduled id isScheduled)).1
  have kepts := kept_snoc seen fresh
  exact {
    keyed := keyed
    sublist := running ▸ examined.sublist
    running := by
      rw [running, preempted, kepts, examined.running, List.append_assoc, List.singleton_append]
    index := by
      rw [index, preempted, kepts, List.length_append, List.length_singleton, examined.index]
    distinct := by
      rw [List.append_assoc]
      exact examined.distinct
    fresh := by
      rw [preempted]
      exact fun other isRest => examined.fresh other (List.mem_cons_of_mem _ isRest)
    listed := by
      rw [running, preempted]
      exact examined.listed
    scheduledOnce := by
      rcases scheduled with same | added
      · rw [same]
        exact examined.scheduledOnce
      · rw [added]
        exact List.nodup_append.mpr ⟨examined.scheduledOnce, List.nodup_singleton id,
          fun a isA b isB same => notScheduled (List.mem_singleton.mp isB ▸ same ▸ isA)⟩
    scheduled := by
      intro other isScheduled
      rw [preempted, kepts, List.mem_append]
      rcases scheduled with same | added
      · rw [same] at isScheduled
        exact Or.inl (examined.scheduled other isScheduled)
      · rw [added, List.mem_append] at isScheduled
        exact isScheduled.imp_left (examined.scheduled other) }

theorem examined_init {s : Scheduler H E} (distinct : s.running.Nodup)
    (keyed : ∀ id request, s.requests.get? id = some request → request.requestId = id) :
    Examined (fun id => (s.requests.get? id).map Request.rank) s.running [] s.running
      (init s) where
  keyed := ⟨keyed, fun _ => rfl⟩
  sublist := .refl _
  running := rfl
  index := rfl
  distinct := distinct
  fresh := fun _ _ => List.not_mem_nil
  listed := fun _ isRunning => Or.inl isRunning
  scheduledOnce := List.nodup_nil
  scheduled := fun _ isScheduled => absurd isScheduled List.not_mem_nil

/-- The second of the two requests is preempted before the first. -/
abbrev Outranks (rank : Nat → Option (Int × Int)) (first second : Nat) : Prop :=
  ∃ a, rank first = some a ∧ ∃ b, rank second = some b ∧ (a.1 < b.1 ∨ a.1 = b.1 ∧ a.2 < b.2)

theorem Keyed.lowestPriority {requests : Dict Nat (Request H)} (keyed : Keyed rank requests)
    {l : List Nat} (ordered : l.Pairwise (Outranks rank)) :
    lowestPriority requests l = l.getLast? := by
  induction l with
  | nil => rfl
  | cons first rest ih =>
    obtain ⟨outranks, later⟩ := List.pairwise_cons.mp ordered
    rw [ScheduleLoop.lowestPriority, ih later, List.getLast?_cons]
    cases isLast : rest.getLast? with
    | none => rfl
    | some last =>
      obtain ⟨a, isFirst, b, isLast, before⟩ := outranks last (List.mem_of_getLast? isLast)
      rw [← keyed.ranks] at isFirst isLast
      obtain ⟨_, found, rfl⟩ := Option.map_eq_some_iff.mp isFirst
      obtain ⟨_, found', rfl⟩ := Option.map_eq_some_iff.mp isLast
      simp only [found, found']
      exact if_pos before

/-- The victim is the last running request, and the index is not behind it. -/
theorem Examined.sparesPassed (ordered : start.Pairwise (Outranks rank))
    (examined : Examined rank start seen (id :: rest) loop) : loop.SparesPassed := by
  intro _ victim isLowest
  rw [examined.keyed.lowestPriority (ordered.sublist examined.sublist), examined.running,
    List.getLast?_append_cons] at isLowest
  right
  rw [examined.drop_running]
  exact List.mem_of_getLast? isLowest

theorem Examined.encoded {numNewTokens : Int} {plan : EncoderPlan}
    (examined : Examined rank start seen rest loop)
    (plans : loop.tryScheduleEncoderInputs encoders request request.numComputedTokens
      numNewTokens = .ok (plan, loop')) : Examined rank start seen rest loop' := by
  obtain ⟨encoder, rfl⟩ := (tryScheduleEncoderInputs_spec _ _ _ _).ok plans
  exact examined.congr examined.keyed rfl rfl rfl rfl

variable [DecidableEq H]

/-- The states of the inner loop in which there are no slots for the request, so that a victim is
taken. -/
inductive SlotsShort (encoders : EncoderCacheManager H E) (request : Request H)
    (numNewTokens : Int) : ScheduleLoop H E → ScheduleLoop H E → Prop
  | first {loop : ScheduleLoop H E} {kv : KVCacheManager H} :
      loop.scheduler.kv.allocateSlots (runningSlotArgs request numNewTokens loop.scheduler) =
        .ok (none, kv) →
      SlotsShort encoders request numNewTokens loop (loop.withKv kv)
  | next {loop middle short : ScheduleLoop H E} {kv : KVCacheManager H} {victim : Request H} :
      loop.scheduler.kv.allocateSlots (runningSlotArgs request numNewTokens loop.scheduler) =
        .ok (none, kv) →
      Preempts encoders (loop.withKv kv) victim middle →
      victim.requestId ≠ request.requestId →
      SlotsShort encoders request numNewTokens middle short →
      SlotsShort encoders request numNewTokens loop short

/-- The states of the loop over the running requests in which a victim is taken. -/
inductive TakesVictimIn (encoders : EncoderCacheManager H E) :
    ScheduleLoop H E → ScheduleLoop H E → Prop
  | now {loop encoded short : ScheduleLoop H E} {id : Nat} {request : Request H}
      {plan : EncoderPlan} : 0 < loop.tokenBudget →
      loop.scheduler.running[loop.reqIndex]? = some id →
      loop.scheduler.requests.get? id = some request → ¬ AwaitsLastTokens request →
      loop.tryScheduleEncoderInputs encoders request request.numComputedTokens
        (loop.runningNumNewTokens request) = .ok (plan, encoded) →
      plan.numNewTokens ≠ 0 →
      SlotsShort encoders request plan.numNewTokens encoded short →
      TakesVictimIn encoders loop short
  | later {loop middle short : ScheduleLoop H E} {id : Nat} {request : Request H} :
      0 < loop.tokenBudget → loop.scheduler.running[loop.reqIndex]? = some id →
      loop.scheduler.requests.get? id = some request →
      Turn encoders request loop true middle →
      TakesVictimIn encoders middle short →
      TakesVictimIn encoders loop short

theorem Allocates.examined {numNewTokens : Int} {newBlocks : Option (List (List Nat))}
    (allocates : Allocates encoders request numNewTokens loop newBlocks loop') :
    ∀ {rest : List Nat}, newBlocks.isSome = true →
      Examined rank start seen (request.requestId :: rest) loop →
      (∀ short, SlotsShort encoders request numNewTokens loop short →
        short.SparesPassed) →
        ∃ rest', rest'.length ≤ rest.length ∧
          Examined rank start seen (request.requestId :: rest') loop' := by
  induction allocates with
  | fits gives =>
    intro rest _ examined _
    exact ⟨rest, Nat.le_refl _, examined.withKv _⟩
  | self gives preempts isSelf =>
    intro rest isSome
    cases isSome
  | @other loop middle loop' kv victim newBlocks gives preempts isOther later ih =>
    intro rest isSome examined spares
    obtain ⟨rest₁, shorter, after⟩ :=
      preempts.examined (examined.withKv kv) isOther (spares _ (.first gives))
    obtain ⟨rest₂, shorter', last⟩ := ih isSome after fun short isShort =>
      spares short (.next gives preempts isOther isShort)
    exact ⟨rest₂, shorter'.trans shorter, last⟩

theorem Turn.examined (turn : Turn encoders request loop true loop')
    (examined : Examined rank start seen (request.requestId :: rest) loop)
    (stored : loop.scheduler.requests.get? request.requestId = some request)
    (spares : ∀ {plan encoded short}, ¬ AwaitsLastTokens request →
      loop.tryScheduleEncoderInputs encoders request request.numComputedTokens
        (loop.runningNumNewTokens request) = .ok (plan, encoded) → plan.numNewTokens ≠ 0 →
      SlotsShort encoders request plan.numNewTokens encoded short → short.SparesPassed) :
    ∃ rest', rest'.length ≤ rest.length ∧
      Examined rank start (seen ++ [request.requestId]) rest' loop' := by
  cases turn with
  | awaits awaits =>
    exact ⟨rest, Nat.le_refl _, examined.snoc examined.keyed rfl rfl rfl (Or.inl rfl)⟩
  | idle notAwaits plans noTokens =>
    obtain ⟨encoder, rfl⟩ := (tryScheduleEncoderInputs_spec _ _ _ _).ok plans
    exact ⟨rest, Nat.le_refl _, examined.snoc examined.keyed rfl rfl rfl (Or.inl rfl)⟩
  | @scheduled plan encoded allocated _ newBlocks notAwaits plans hasTokens allocates encodes =>
    obtain ⟨rest', shorter, found⟩ := allocates.examined rfl (examined.encoded plans)
      fun short isShort => spares notAwaits plans hasTokens isShort
    have snoc : Examined rank start (seen ++ [request.requestId]) rest'
        (allocated.scheduled request newBlocks plan.numNewTokens) :=
      found.snoc found.keyed rfl rfl rfl (Or.inr rfl)
    refine ⟨rest', shorter, ?_⟩
    obtain ⟨_, _, drops, rfl | rfl⟩ := scheduleSpecTokens_spec request plan.numNewTokens
      (allocated.scheduled request newBlocks plan.numNewTokens)
    · rw [drops] at encodes
      obtain ⟨_, _, _, rfl⟩ := (allocateEncoderInputs_spec _ _ _).ok encodes
      exact snoc.congr snoc.keyed rfl rfl rfl rfl
    · rw [drops] at encodes
      obtain ⟨_, _, _, rfl⟩ := (allocateEncoderInputs_spec _ _ _).ok encodes
      have isRank := examined.keyed.ranks request.requestId
      rw [stored] at isRank
      exact snoc.congr (snoc.keyed.store _ isRank) rfl rfl rfl rfl

/-! ## The whole loop -/

theorem runningTurns_examined (n : Nat) :
    ∀ {loop loop' : ScheduleLoop H E} {seen turns rest : List Nat},
      loop.runningTurns encoders n = .ok ((turns, false), loop') →
      Examined rank start seen rest loop → rest.length ≤ n →
      (∀ short, TakesVictimIn encoders loop short → short.SparesPassed) →
      (loop'.tokenBudget ≤ 0 → loop'.scheduler.running.length ≤ loop'.reqIndex) →
        Examined rank start (seen ++ turns) [] loop' := by
  induction n with
  | zero =>
    intro loop loop' seen turns rest ran examined bound spares notExhausted
    cases ran
    obtain rfl : rest = [] := List.eq_nil_of_length_eq_zero (Nat.le_zero.mp bound)
    rw [List.append_nil]
    exact examined
  | succ n ih =>
    intro loop loop' seen turns rest ran examined bound spares notExhausted
    rw [runningTurns, examined.getElem?] at ran
    split at ran
    · rename_i exhausted
      cases ran
      obtain rfl : rest = [] := by
        rw [← examined.drop_running]
        exact List.drop_of_length_le (notExhausted exhausted)
      rw [List.append_nil]
      exact examined
    · rename_i hasBudget
      cases rest with
      | nil =>
        cases ran
        rw [List.append_nil]
        exact examined
      | cons id rest =>
        obtain ⟨request, found, next⟩ := bind_eq_ok.mp ran
        obtain ⟨⟨goesOn, middle⟩, turned, next⟩ := bind_eq_ok.mp next
        have stored := (Scheduler.find_meets id loop.scheduler).ok found
        obtain rfl := examined.keyed.own id request stored
        cases goesOn with
        | false => cases next
        | true =>
          obtain ⟨⟨⟨later, preempted⟩, last⟩, runs, same⟩ := bind_eq_ok.mp next
          cases same
          have turn := turn_of_ok turned
          obtain ⟨rest', shorter, after⟩ := turn.examined examined stored
            fun notAwaits plans hasTokens isShort => spares _
              (.now (by omega) examined.getElem? stored notAwaits plans hasTokens isShort)
          rw [← List.singleton_append, ← List.append_assoc]
          rw [List.length_cons] at bound
          refine ih runs after (by omega) (fun short takes => ?_) notExhausted
          exact spares short (.later (by omega) examined.getElem? stored turn takes)

theorem SlotsShort.config {numNewTokens : Int} {short : ScheduleLoop H E}
    (isShort : SlotsShort encoders request numNewTokens loop short) :
    short.scheduler.config = loop.scheduler.config := by
  induction isShort with
  | first gives => rfl
  | next gives preempts isOther later ih => exact ih.trans preempts.keeps.config

theorem TakesVictimIn.config {short : ScheduleLoop H E}
    (takes : TakesVictimIn encoders loop short) :
    short.scheduler.config = loop.scheduler.config := by
  induction takes with
  | now hasBudget isNext stored notAwaits plans hasTokens isShort =>
    obtain ⟨encoder, rfl⟩ := (tryScheduleEncoderInputs_spec _ _ _ _).ok plans
    exact isShort.config
  | later hasBudget isNext stored turn takes ih => exact ih.trans turn.keeps.config

/-- First come, first served takes the last running request, which is never passed over. -/
theorem sparesPassed_of_fcfs (isFcfs : loop.scheduler.config.policy = .fcfs) :
    ∀ short, TakesVictimIn encoders loop short → short.SparesPassed := by
  intro short takes isPriority
  rw [takes.config, isFcfs] at isPriority
  cases isPriority

section Ordered

variable (ordered : start.Pairwise (Outranks rank))

include ordered

theorem SlotsShort.sparesPassed {numNewTokens : Int} {short : ScheduleLoop H E}
    (isShort : SlotsShort encoders request numNewTokens loop short) :
    ∀ {rest}, Examined rank start seen (request.requestId :: rest) loop → short.SparesPassed := by
  induction isShort with
  | first gives =>
    intro rest examined
    exact (examined.withKv _).sparesPassed ordered
  | @next loop middle short kv victim gives preempts isOther later ih =>
    intro rest examined
    have before := examined.withKv kv
    obtain ⟨_, _, after⟩ := preempts.examined before isOther (before.sparesPassed ordered)
    exact ih after

theorem TakesVictimIn.sparesPassed {short : ScheduleLoop H E}
    (takes : TakesVictimIn encoders loop short) :
    ∀ {seen rest}, Examined rank start seen rest loop → short.SparesPassed := by
  induction takes with
  | @now loop encoded short id request plan hasBudget isNext stored notAwaits plans hasTokens
      isShort =>
    intro seen rest examined
    obtain rfl := examined.keyed.own id request stored
    obtain ⟨rest, rfl⟩ := List.head?_eq_some_iff.mp (examined.getElem?.symm.trans isNext)
    exact isShort.sparesPassed ordered (examined.encoded plans)
  | @later loop middle short id request hasBudget isNext stored turn takes ih =>
    intro seen rest examined
    obtain rfl := examined.keyed.own id request stored
    obtain ⟨rest, rfl⟩ := List.head?_eq_some_iff.mp (examined.getElem?.symm.trans isNext)
    obtain ⟨_, _, after⟩ := turn.examined examined stored fun _ plans _ isShort =>
      isShort.sparesPassed ordered (examined.encoded plans)
    exact ih after

end Ordered

/-- If the loop ends neither with the budget nor with the preemption of the current request, and the
victims of the priority policy are not requests that were passed over, every running request is
examined exactly once or preempted. -/
theorem running_examined_once {s : Scheduler H E} {turns : List Nat} (distinct : s.running.Nodup)
    (keyed : ∀ id request, s.requests.get? id = some request → request.requestId = id)
    (ran : (init s).runningTurns encoders s.running.length =
      .ok ((turns, false), loop'))
    (notExhausted : loop'.tokenBudget ≤ 0 → loop'.scheduler.running.length ≤ loop'.reqIndex)
    (spares : ∀ short, TakesVictimIn encoders (init s) short → short.SparesPassed) :
    (init s).scheduleRunning encoders s.running.length = .ok loop' ∧
      ∀ id ∈ s.running, turns.count id = 1 ∨ id ∈ loop'.preemptedReqs := by
  have examined := runningTurns_examined _ ran (examined_init distinct keyed) (Nat.le_refl _) spares
    notExhausted
  rw [List.nil_append] at examined
  constructor
  · rw [← runningTurns_erase, ran]
    rfl
  · intro id isStart
    rcases examined.listed id isStart with isRunning | isPreempted
    · left
      rw [examined.running, List.append_nil] at isRunning
      have once := examined.distinct
      rw [List.append_nil] at once
      exact List.count_eq_one_of_mem once (mem_kept.mp isRunning).1
    · exact Or.inr isPreempted

end ScheduleLoop

/-! ## A request that is skipped -/

def fourBlocksConfig : KVCacheConfig where
  numBlocks := 5
  groups := [⟨.full, 2⟩]
  maxModelLen := 8
  hashBlockSize := 2
  enableCaching := true
  useEagle := false
  worldSize := 1
  numBlocks_pos := Nat.succ_pos _
  hashBlockSize_eq := smallKVCacheConfig.hashBlockSize_eq

def rankedCoreRequest (id : Nat) (promptTokenIds : List Nat) (priority : Int) : EngineCoreRequest :=
  { requestId := id, promptTokenIds, priority, samplingParams := some { maxTokens := 4 } }

def rankedScheduler (policy : SchedulingPolicy) :
    Scheduler ContentHash Unit :=
  .init { smallSchedulerConfig with policy } (some (contentHasher 2)) fourBlocksConfig ()

/-- Two batches are on their way at a time.  The first holds the request of the lowest priority, the
second the two others; when the result of the second comes, the next token of the first request
is being computed. -/
def twoBatches : List Call :=
  [.op (.add (rankedCoreRequest 1 [1, 2] 5)), .schedule, .op (.add (rankedCoreRequest 2 [3, 4] 0)),
    .op (.add (rankedCoreRequest 3 [5] 0)), .schedule, .update 0 (oneTokenEach [1]), .schedule,
    .update 1 (oneTokenEach [2, 3])]

/-- The second request needs a block and there is none: the first one, which was passed over, is
preempted.  The third one moves to its place in front of the index and is neither examined nor
preempted, although it has a token to compute and there is budget for it. -/
theorem ScheduleLoop.third_request_skipped :
    ∃ ops s turns loop', Trace (Scheduler.Step noEncoder) (rankedScheduler .priority) ops s ∧
      s.running = [1, 2, 3] ∧
      (∃ request, s.requests.get? 3 = some request ∧
        request.numComputedTokens < request.numTokens) ∧
      (init s).runningTurns noEncoder s.running.length = .ok ((turns, false), loop') ∧
      (init s).scheduleRunning noEncoder s.running.length = .ok loop' ∧
      0 < loop'.tokenBudget ∧ turns = [1, 2] ∧ loop'.preemptedReqs = [1] := by
  have runs : ∃ run, (rankedScheduler .priority).calls noEncoder twoBatches = .ok run ∧
      run.scheduler.running = [1, 2, 3] ∧
      (∃ request, run.scheduler.requests.get? 3 = some request ∧
        request.numComputedTokens < request.numTokens) ∧
      ∃ result, (init run.scheduler).runningTurns noEncoder run.scheduler.running.length =
          .ok result ∧ result.1 = ([1, 2], false) ∧ 0 < result.2.tokenBudget ∧
        result.2.preemptedReqs = [1] := by
    decide +kernel
  obtain ⟨⟨s, ops, _⟩, runs, running, waits, ⟨_, loop'⟩, ran, rfl, hasBudget, preempted⟩ := runs
  have erased : (init s).scheduleRunning noEncoder s.running.length = .ok loop' := by
    rw [← runningTurns_erase, ran]
    rfl
  exact ⟨ops, s, [1, 2], loop', (Scheduler.calls_trace _ _).ok runs, running, waits, ran, erased,
    hasBudget, rfl, preempted⟩

/-- Each request outranks the next one: the second takes the blocks of the third, which the loop has
not come to. -/
theorem ScheduleLoop.running_examined_once_ordered :
    ∃ (s : Scheduler ContentHash Unit) (turns : List Nat)
      (loop' : ScheduleLoop ContentHash Unit), s.config.policy = .priority ∧
      s.running = [1, 2, 3] ∧
      (init s).runningTurns noEncoder s.running.length = .ok ((turns, false), loop') ∧
      turns = [1, 2] ∧ loop'.preemptedReqs = [3] ∧
      ∀ id ∈ s.running, turns.count id = 1 ∨ id ∈ loop'.preemptedReqs := by
  have runs : ∃ run, (rankedScheduler .priority).calls noEncoder
        [.op (.add (rankedCoreRequest 1 [1, 2] 0)), .op (.add (rankedCoreRequest 2 [3, 4] 1)),
          .op (.add (rankedCoreRequest 3 [5] 2)), .schedule, .update 0 (oneTokenEach [1, 2, 3])] =
        .ok run ∧ run.scheduler.config.policy = .priority ∧ run.scheduler.running = [1, 2, 3] ∧
      run.scheduler.running.Pairwise
        (Outranks fun id => (run.scheduler.requests.get? id).map Request.rank) ∧
      (∀ entry ∈ run.scheduler.requests.entries, entry.2.requestId = entry.1) ∧
      ∃ result, (init run.scheduler).runningTurns noEncoder run.scheduler.running.length =
          .ok result ∧ result.1 = ([1, 2], false) ∧ 0 < result.2.tokenBudget ∧
        result.2.preemptedReqs = [3] := by
    decide +kernel
  obtain ⟨⟨s, _, _⟩, _, isPriority, running, ordered, keyed, ⟨_, loop'⟩, ran, rfl, hasBudget,
    preempted⟩ := runs
  have distinct : s.running.Nodup := by
    rw [running]
    decide
  have ownIds : ∀ id request, s.requests.get? id = some request → request.requestId = id :=
    fun id request found => keyed (id, request) ((Dict.get?_eq_some_iff _ _ _).mp found)
  have once := running_examined_once distinct ownIds ran
    (fun exhausted => absurd hasBudget (not_lt.mpr exhausted))
    fun _ takes => takes.sparesPassed ordered (examined_init distinct ownIds)
  exact ⟨s, [1, 2], loop', isPriority, running, ran, rfl, preempted, once.2⟩

end Kalypso.Engine
