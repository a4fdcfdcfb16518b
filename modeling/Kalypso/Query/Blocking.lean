import Mathlib.Algebra.Order.BigOperators.Group.Multiset
import Mathlib.Algebra.Order.Group.Nat
import Mathlib.Data.Multiset.Bind
import Kalypso.Lib.Trace
import Kalypso.Lib.Update

/-!
# Blocking execution

`BlockingExecutor.execute_tasks`: a producer builds one task for every seed, waits until the
budget of the task fits into the memory manager, and puts it into a queue from which workers take
tasks.  Every call has a condition of its own, which its workers notify when they release a
budget; the budget is shared by all calls.

A step is what a coroutine does between two points at which it may be suspended.
-/

set_option autoImplicit false

namespace Kalypso.Query

open Kalypso.Lib

variable {S R : Type}

/-- What `task_builder` makes of a seed; without an outcome the task raises. -/
structure BlockTask (R : Type) where
  budget : Nat
  outcome : Option R

/-- Where the producer of a call is.  From `granted` on until the budget is allocated it holds the
lock of the condition. -/
inductive Producer (S R : Type) where
  | next (seeds : List S)
  | checking (task : BlockTask R) (seeds : List S)
  | waiting (task : BlockTask R) (seeds : List S)
  | granted (task : BlockTask R) (seeds : List S)
  | putting (task : BlockTask R) (seeds : List S)
  | joining
  | returned
  | raised

/-- A worker; `releasing` is the `finally` block, and a worker whose task has raised is dead after
it. -/
inductive Worker (R : Type) where
  | idle
  | running (task : BlockTask R)
  | releasing (task : BlockTask R)
  | dead

def Worker.after (task : BlockTask R) : Worker R := if task.outcome.isSome then .idle else .dead

structure BlockingCall (S R : Type) where
  seeds : List S
  taskBuilder : S → Option (BlockTask R)
  concurrency : Nat
  producer : Producer S R
  queue : List (BlockTask R)
  unfinished : Nat
  workers : List (Worker R)
  results : List R

inductive CallOp where
  | build
  | check
  | allocate
  | put
  | join
  | get (worker : Nat)
  | finish (worker : Nat)
  | release (worker : Nat)

namespace BlockingCall

def begin (taskBuilder : S → Option (BlockTask R)) (concurrency : Nat) (seeds : List S) :
    BlockingCall S R where
  seeds := seeds
  taskBuilder := taskBuilder
  concurrency := concurrency
  producer := .next seeds
  queue := []
  unfinished := 0
  workers := List.replicate concurrency .idle
  results := []

def notify : Producer S R → Producer S R
  | .waiting task seeds => .checking task seeds
  | producer => producer

/-- `none` while the coroutine cannot go on. -/
def act (capacity used : Nat) (call : BlockingCall S R) : CallOp → Option (Nat × BlockingCall S R)
  | .build =>
      match call.producer with
      | .next (seed :: seeds) =>
          match call.taskBuilder seed with
          | none => some (used, { call with producer := .raised })
          | some task => some (used, { call with producer := .checking task seeds })
      | _ => none
  | .check =>
      match call.producer with
      | .checking task seeds =>
          if used + task.budget ≤ capacity then
            some (used, { call with producer := .granted task seeds })
          else some (used, { call with producer := .waiting task seeds })
      | _ => none
  | .allocate =>
      match call.producer with
      | .granted task seeds =>
          if used + task.budget ≤ capacity then
            some (used + task.budget, { call with producer := .putting task seeds })
          else none
      | _ => none
  | .put =>
      match call.producer with
      | .putting task seeds =>
          -- a queue of size 0 has no bound
          if call.concurrency = 0 ∨ call.queue.length < call.concurrency then
            some (used, { call with
              producer := .next seeds
              queue := call.queue ++ [task]
              unfinished := call.unfinished + 1 })
          else none
      | _ => none
  | .join =>
      match call.producer with
      | .next [] => some (used, { call with producer := .joining })
      | .joining =>
          if call.unfinished = 0 then some (used, { call with producer := .returned }) else none
      | _ => none
  | .get worker =>
      match call.workers[worker]?, call.queue with
      | some .idle, task :: queue =>
          some (used, { call with
            queue := queue
            workers := call.workers.set worker (.running task) })
      | _, _ => none
  | .finish worker =>
      match call.workers[worker]? with
      | some (.running task) =>
          some (used, { call with
            workers := call.workers.set worker (.releasing task)
            results := call.results ++ task.outcome.toList })
      | _ => none
  | .release worker =>
      match call.workers[worker]?, call.producer with
      | _, .granted _ _ => none
      | some (.releasing task), producer =>
          some (used - task.budget, { call with
            producer := notify producer
            unfinished := call.unfinished - 1
            workers := call.workers.set worker (.after task) })
      | _, _ => none

end BlockingCall

structure BlockingSystem (S R : Type) where
  capacity : Nat
  globalUsed : Nat
  calls : List (BlockingCall S R)

inductive SystemOp (S R : Type) where
  | begin (taskBuilder : S → Option (BlockTask R)) (concurrency : Nat) (seeds : List S)
  | act (index : Nat) (op : CallOp)

namespace BlockingSystem

def init (capacity : Nat) : BlockingSystem S R := ⟨capacity, 0, []⟩

def step (s : BlockingSystem S R) : SystemOp S R → Option (BlockingSystem S R)
  | .begin taskBuilder concurrency seeds =>
      some { s with calls := s.calls ++ [.begin taskBuilder concurrency seeds] }
  | .act index op => do
      let call ← s.calls[index]?
      let (used, call) ← call.act s.capacity s.globalUsed op
      return { s with globalUsed := used, calls := s.calls.set index call }

def Step (s : BlockingSystem S R) (op : SystemOp S R) (s' : BlockingSystem S R) : Prop :=
  s.step op = some s'

end BlockingSystem

/-! ## What a call can do -/

namespace BlockingCall

inductive Acts (capacity used : Nat) (call : BlockingCall S R) :
    CallOp → Nat → BlockingCall S R → Prop
  | raise {seed : S} {seeds : List S} (at_ : call.producer = .next (seed :: seeds))
      (fails : call.taskBuilder seed = none) :
      Acts capacity used call .build used { call with producer := .raised }
  | build {seed : S} {seeds : List S} {task : BlockTask R}
      (at_ : call.producer = .next (seed :: seeds)) (builds : call.taskBuilder seed = some task) :
      Acts capacity used call .build used { call with producer := .checking task seeds }
  | grant {task : BlockTask R} {seeds : List S} (at_ : call.producer = .checking task seeds)
      (fits : used + task.budget ≤ capacity) :
      Acts capacity used call .check used { call with producer := .granted task seeds }
  | wait {task : BlockTask R} {seeds : List S} (at_ : call.producer = .checking task seeds)
      (full : capacity < used + task.budget) :
      Acts capacity used call .check used { call with producer := .waiting task seeds }
  | allocate {task : BlockTask R} {seeds : List S} (at_ : call.producer = .granted task seeds)
      (fits : used + task.budget ≤ capacity) :
      Acts capacity used call .allocate (used + task.budget)
        { call with producer := .putting task seeds }
  | put {task : BlockTask R} {seeds : List S} (at_ : call.producer = .putting task seeds) :
      Acts capacity used call .put used { call with
        producer := .next seeds
        queue := call.queue ++ [task]
        unfinished := call.unfinished + 1 }
  | join (at_ : call.producer = .next []) :
      Acts capacity used call .join used { call with producer := .joining }
  | leave (at_ : call.producer = .joining) (finished : call.unfinished = 0) :
      Acts capacity used call .join used { call with producer := .returned }
  | get {worker : Nat} {task : BlockTask R} {queue : List (BlockTask R)}
      (isIdle : call.workers[worker]? = some .idle) (first : call.queue = task :: queue) :
      Acts capacity used call (.get worker) used { call with
        queue := queue
        workers := call.workers.set worker (.running task) }
  | finish {worker : Nat} {task : BlockTask R}
      (runs : call.workers[worker]? = some (.running task)) :
      Acts capacity used call (.finish worker) used { call with
        workers := call.workers.set worker (.releasing task)
        results := call.results ++ task.outcome.toList }
  | release {worker : Nat} {task : BlockTask R}
      (ends : call.workers[worker]? = some (.releasing task))
      (unlocked : ∀ task seeds, call.producer ≠ .granted task seeds) :
      Acts capacity used call (.release worker) (used - task.budget) { call with
        producer := notify call.producer
        unfinished := call.unfinished - 1
        workers := call.workers.set worker (.after task) }

theorem acts_of_act {capacity used used' : Nat} {call call' : BlockingCall S R} {op : CallOp}
    (acts : call.act capacity used op = some (used', call')) :
    Acts capacity used call op used' call' := by
  cases op with
  | build =>
    simp only [act] at acts
    split at acts
    · rename_i seed seeds at_
      split at acts
      · rename_i fails
        cases acts
        exact .raise at_ fails
      · rename_i task builds
        cases acts
        exact .build at_ builds
    · cases acts
  | check =>
    simp only [act] at acts
    split at acts
    · rename_i task seeds at_
      split at acts
      · rename_i fits
        cases acts
        exact .grant at_ fits
      · rename_i full
        cases acts
        exact .wait at_ (Nat.lt_of_not_le full)
    · cases acts
  | allocate =>
    simp only [act] at acts
    split at acts
    · rename_i task seeds at_
      split at acts
      · rename_i fits
        cases acts
        exact .allocate at_ fits
      · cases acts
    · cases acts
  | put =>
    simp only [act] at acts
    split at acts
    · rename_i task seeds at_
      split at acts
      · cases acts
        exact .put at_
      · cases acts
    · cases acts
  | join =>
    simp only [act] at acts
    split at acts
    · rename_i at_
      cases acts
      exact .join at_
    · rename_i at_
      split at acts
      · rename_i finished
        cases acts
        exact .leave at_ finished
      · cases acts
    · cases acts
  | get worker =>
    simp only [act] at acts
    split at acts
    · rename_i task queue isIdle first
      cases acts
      exact .get isIdle first
    · cases acts
  | finish worker =>
    simp only [act] at acts
    split at acts
    · rename_i task runs
      cases acts
      exact .finish runs
    · cases acts
  | release worker =>
    simp only [act] at acts
    split at acts
    · cases acts
    · rename_i task ends unlocked
      cases acts
      exact .release ends unlocked
    · cases acts

/-! ## What a call holds -/

end BlockingCall

def Worker.busy : Worker R → Multiset (BlockTask R)
  | .running task => {task}
  | .releasing task => {task}
  | _ => 0

def Worker.pending : Worker R → Multiset (BlockTask R)
  | .running task => {task}
  | _ => 0

open Worker

@[simp] theorem Worker.busy_after (task : BlockTask R) : (after task).busy = 0 := by
  unfold after
  split
  · rfl
  · rfl

@[simp] theorem Worker.pending_after (task : BlockTask R) : (after task).pending = 0 := by
  unfold after
  split
  · rfl
  · rfl

namespace Producer

def remaining : Producer S R → List S
  | .next seeds => seeds
  | .checking _ seeds => seeds
  | .waiting _ seeds => seeds
  | .granted _ seeds => seeds
  | .putting _ seeds => seeds
  | _ => []

def current : Producer S R → Multiset (BlockTask R)
  | .checking task _ => {task}
  | .waiting task _ => {task}
  | .granted task _ => {task}
  | .putting task _ => {task}
  | _ => 0

def admitted : Producer S R → Multiset (BlockTask R)
  | .putting task _ => {task}
  | _ => 0

end Producer

def outcomes (tasks : Multiset (BlockTask R)) : Multiset R :=
  tasks.bind fun task => (task.outcome.toList : Multiset R)

def seedOutcomes (taskBuilder : S → Option (BlockTask R)) (seeds : List S) : Multiset R :=
  (seeds.filterMap fun seed => (taskBuilder seed).bind BlockTask.outcome : List R)

open Producer

namespace BlockingCall

def working (call : BlockingCall S R) : Multiset (BlockTask R) :=
  (call.queue : Multiset (BlockTask R)) + (call.workers.map busy).sum

def held (call : BlockingCall S R) : Multiset (BlockTask R) :=
  call.producer.admitted + call.working

def heldBudget (call : BlockingCall S R) : Nat := (call.held.map BlockTask.budget).sum

def worth (call : BlockingCall S R) : Multiset R :=
  (call.results : Multiset R) +
    outcomes (call.producer.current +
      ((call.queue : Multiset (BlockTask R)) + (call.workers.map pending).sum)) +
    seedOutcomes call.taskBuilder call.producer.remaining

variable {capacity used used' : Nat} {call call' : BlockingCall S R} {op : CallOp}

theorem admitted_notify (producer : Producer S R) :
    (notify producer).admitted = producer.admitted := by
  cases producer with
  | _ => rfl

theorem current_notify (producer : Producer S R) :
    (notify producer).current = producer.current := by
  cases producer with
  | _ => rfl

theorem remaining_notify (producer : Producer S R) :
    (notify producer).remaining = producer.remaining := by
  cases producer with
  | _ => rfl

/-- How a step changes what a call holds and the bytes in use: not at all, by one task that is
admitted, or by one that is released, with a notification of the producer. -/
inductive Change (used : Nat) (call : BlockingCall S R) (used' : Nat)
    (call' : BlockingCall S R) : Prop
  | same (held : call'.held = call.held) (bytes : used' = used)
  | take (task : BlockTask R) (held : call'.held = task ::ₘ call.held)
      (bytes : used' = used + task.budget)
      (isPutting : ∃ seeds, call'.producer = .putting task seeds)
  | release (task : BlockTask R) (held : call.held = task ::ₘ call'.held)
      (bytes : used' = used - task.budget) (notified : call'.producer = notify call.producer)

theorem Acts.change (acts : Acts capacity used call op used' call') :
    Change used call used' call' := by
  cases acts with
  | raise at_ fails | build at_ builds | grant at_ fits | wait at_ full | join at_
  | leave at_ finished => exact .same (by simp [held, working, at_, admitted]) rfl
  | @allocate task seeds at_ fits =>
    refine .take task ?_ rfl ⟨seeds, rfl⟩
    simp [held, working, at_, admitted]
  | @put task seeds at_ =>
    refine .same ?_ rfl
    simp only [held, working, at_, admitted, ← Multiset.coe_add,
      Multiset.coe_singleton]
    abel
  | @get worker task queue isIdle first =>
    obtain ⟨others, before, after⟩ := exists_sum_map_set busy _ _ _ isIdle
    refine .same ?_ rfl
    simp only [held, working, before, after, first, busy, ← Multiset.cons_coe,
      ← Multiset.singleton_add]
    abel
  | @finish worker task runs =>
    obtain ⟨others, before, after⟩ := exists_sum_map_set busy _ _ _ runs
    refine .same ?_ rfl
    simp only [held, working, before, after, busy]
  | @release worker task ends unlocked =>
    obtain ⟨others, before, after⟩ := exists_sum_map_set busy _ _ _ ends
    refine .release task ?_ rfl rfl
    have own : (releasing task).busy = {task} := rfl
    simp only [held, working, before, after, own, busy_after, admitted_notify,
      ← Multiset.singleton_add]
    abel

/-- A producer that waits has just found the capacity exhausted, or was waiting. -/
theorem Acts.waiting (acts : Acts capacity used call op used' call') {task : BlockTask R}
    {seeds : List S} (waits : call'.producer = .waiting task seeds) :
    call'.held = call.held ∧ used' = used ∧
      (call.producer = .waiting task seeds ∨
        (op = .check ∧ call.producer = .checking task seeds ∧ capacity < used + task.budget)) := by
  cases acts.change with
  | same held bytes =>
    refine ⟨held, bytes, ?_⟩
    cases acts with
    | wait at_ full =>
      cases waits
      exact .inr ⟨rfl, at_, full⟩
    | get isIdle first => exact .inl waits
    | finish runs => exact .inl waits
    | release ends unlocked =>
      exfalso
      cases producer : call.producer with
      | _ =>
        rw [producer] at waits
        cases waits
    | _ => cases waits
  | take other held bytes isPutting =>
    obtain ⟨rest, isPutting⟩ := isPutting
    rw [isPutting] at waits
    cases waits
  | release other held bytes notified =>
    rw [notified] at waits
    exfalso
    cases producer : call.producer with
    | _ =>
      rw [producer] at waits
      cases waits

theorem Acts.arguments (acts : Acts capacity used call op used' call') :
    call'.seeds = call.seeds ∧ call'.taskBuilder = call.taskBuilder ∧
      call'.concurrency = call.concurrency ∧ call'.workers.length = call.workers.length := by
  cases acts with
  | _ => simp

theorem seedOutcomes_cons_some {taskBuilder : S → Option (BlockTask R)} {seed : S}
    {task : BlockTask R} (builds : taskBuilder seed = some task) (seeds : List S) :
    seedOutcomes taskBuilder (seed :: seeds) =
      outcomes {task} + seedOutcomes taskBuilder seeds := by
  cases outcome : task.outcome with
  | none | some result => simp [seedOutcomes, outcomes, builds, outcome]

theorem outcomes_add (left right : Multiset (BlockTask R)) :
    outcomes (left + right) = outcomes left + outcomes right :=
  Multiset.add_bind left right _

/-- Unless the producer raises, no result is lost and none is made up. -/
theorem Acts.worth (acts : Acts capacity used call op used' call')
    (goesOn : call'.producer ≠ .raised) : call'.worth = call.worth := by
  cases acts with
  | raise at_ fails => exact absurd rfl goesOn
  | build at_ builds =>
    simp only [BlockingCall.worth, at_, current, remaining,
      seedOutcomes_cons_some builds, outcomes_add]
    simp only [outcomes, Multiset.zero_bind]
    abel
  | grant at_ fits | wait at_ full | allocate at_ fits | join at_ | leave at_ finished =>
    simp [BlockingCall.worth, at_, current, remaining]
  | put at_ =>
    simp only [BlockingCall.worth, at_, current, remaining,
      ← Multiset.coe_add, Multiset.coe_singleton, outcomes_add]
    simp only [outcomes, Multiset.zero_bind]
    abel
  | get isIdle first =>
    obtain ⟨others, before, after⟩ := exists_sum_map_set pending _ _ _ isIdle
    simp only [BlockingCall.worth, before, after, first, pending, ← Multiset.cons_coe,
      ← Multiset.singleton_add, outcomes_add]
    simp only [outcomes, Multiset.zero_bind]
    abel
  | @finish worker task runs =>
    obtain ⟨others, before, after⟩ := exists_sum_map_set pending _ _ _ runs
    simp only [BlockingCall.worth, before, after, pending, ← Multiset.coe_add,
      outcomes_add]
    simp only [outcomes, Multiset.zero_bind, Multiset.singleton_bind]
    abel
  | @release worker task ends unlocked =>
    obtain ⟨others, before, after⟩ := exists_sum_map_set pending _ _ _ ends
    have own : (releasing task).pending = 0 := rfl
    simp only [BlockingCall.worth, before, after, own, pending_after, current_notify,
      remaining_notify]

/-- The counter of the queue counts the tasks that are queued or with a worker. -/
theorem Acts.unfinished (acts : Acts capacity used call op used' call')
    (counted : call.unfinished = call.working.card) : call'.unfinished = call'.working.card := by
  cases acts with
  | put at_ =>
    simp only [working, ← Multiset.coe_add, Multiset.card_add, Multiset.coe_card] at counted ⊢
    simp only [List.length_singleton]
    omega
  | get isIdle first =>
    obtain ⟨others, before, after⟩ := exists_sum_map_set busy _ _ _ isIdle
    simp only [working, before, first, Multiset.card_add, Multiset.coe_card,
      List.length_cons] at counted
    simp only [working, after, Multiset.card_add, Multiset.coe_card]
    simp only [busy, Multiset.card_zero, Multiset.card_singleton] at counted ⊢
    omega
  | @finish worker task runs =>
    obtain ⟨others, before, after⟩ := exists_sum_map_set busy _ _ _ runs
    have same : (releasing task).busy = (running task).busy := rfl
    simpa only [working, after, before, same] using counted
  | @release worker task ends unlocked =>
    obtain ⟨others, before, after⟩ := exists_sum_map_set busy _ _ _ ends
    have own : (releasing task).busy = {task} := rfl
    simp only [working, before, own, Multiset.card_add, Multiset.card_singleton] at counted
    simp only [working, after, busy_after, Multiset.card_add, Multiset.card_zero]
    omega
  | _ => exact counted

/-! ### Dead workers -/

def fatal (task : BlockTask R) : Nat := if task.outcome.isSome then 0 else 1

def dead : Worker R → Nat
  | .dead => 1
  | _ => 0

theorem dead_after (task : BlockTask R) : dead (.after task) = fatal task := by
  unfold after fatal
  split
  · rfl
  · rfl

/-- The number of seeds whose task raises. -/
def fatalSeeds (taskBuilder : S → Option (BlockTask R)) (seeds : List S) : Nat :=
  (seeds.map fun seed => ((taskBuilder seed).map fatal).getD 0).sum

def fatalities (tasks : Multiset (BlockTask R)) : Nat := (tasks.map fatal).sum

theorem fatalities_add (left right : Multiset (BlockTask R)) :
    fatalities (left + right) = fatalities left + fatalities right := by
  simp [fatalities]

@[simp] theorem fatalities_zero : fatalities (0 : Multiset (BlockTask R)) = 0 := rfl

@[simp] theorem fatalities_singleton (task : BlockTask R) : fatalities {task} = fatal task := by
  simp [fatalities]

def doomed (call : BlockingCall S R) : Nat :=
  (call.workers.map dead).sum + fatalities (call.producer.current + call.working) +
    fatalSeeds call.taskBuilder call.producer.remaining

theorem Acts.doomed (acts : Acts capacity used call op used' call') :
    call'.doomed ≤ call.doomed := by
  cases acts with
  | raise at_ fails =>
    simp only [BlockingCall.doomed, working, at_, current, remaining,
      fatalSeeds, List.map_nil, List.sum_nil]
    omega
  | build at_ builds =>
    simp only [BlockingCall.doomed, working, at_, current, remaining,
      fatalSeeds, List.map_cons, List.sum_cons, builds, Option.map_some, Option.getD_some,
      fatalities_add, fatalities_singleton, fatalities_zero]
    omega
  | put at_ =>
    simp only [BlockingCall.doomed, working, at_, current, remaining,
      ← Multiset.coe_add, Multiset.coe_singleton, fatalities_add, fatalities_singleton,
      fatalities_zero]
    omega
  | @get worker task queue isIdle first =>
    obtain ⟨others, before, after⟩ := exists_sum_map_set busy _ _ _ isIdle
    obtain ⟨others', before', after'⟩ := exists_sum_map_set dead _ _ _ isIdle
    simp only [BlockingCall.doomed, working, before, after, before', after', first,
      ← Multiset.cons_coe, ← Multiset.singleton_add, fatalities_add]
    simp only [dead, busy, fatalities_zero, fatalities_singleton]
    omega
  | @finish worker task runs =>
    obtain ⟨others, before, after⟩ := exists_sum_map_set busy _ _ _ runs
    obtain ⟨others', before', after'⟩ := exists_sum_map_set dead _ _ _ runs
    simp only [BlockingCall.doomed, working, before, after, before', after', dead, busy]
    exact Nat.le_refl _
  | @release worker task ends unlocked =>
    obtain ⟨others, before, after⟩ := exists_sum_map_set busy _ _ _ ends
    obtain ⟨others', before', after'⟩ := exists_sum_map_set dead _ _ _ ends
    have own : (releasing task).busy = {task} := rfl
    have alive : dead (.releasing task) = 0 := rfl
    simp only [BlockingCall.doomed, working, before, after, before', after', own, alive,
      busy_after, dead_after, current_notify, remaining_notify, fatalities_add,
      fatalities_singleton, fatalities_zero]
    omega
  | grant at_ fits | wait at_ full | allocate at_ fits | join at_ | leave at_ finished =>
    simp [BlockingCall.doomed, working, at_, current, remaining]

theorem exists_alive (size : call.workers.length = call.concurrency)
    (bound : call.doomed ≤ fatalSeeds call.taskBuilder call.seeds)
    (enough : fatalSeeds call.taskBuilder call.seeds < call.concurrency) :
    ∃ worker ∈ call.workers, dead worker = 0 := by
  by_contra none
  push Not at none
  have allDead : call.workers.length ≤ (call.workers.map dead).sum := by
    rw [← List.length_map (f := dead)]
    apply List.length_le_sum_of_one_le
    intro count member
    obtain ⟨worker, isWorker, rfl⟩ := List.mem_map.mp member
    exact Nat.one_le_iff_ne_zero.mpr (none worker isWorker)
  unfold BlockingCall.doomed at bound
  omega

/-- What the task of a seed returns; `none` if it raises or cannot be built. -/
def resultOf (call : BlockingCall S R) (seed : S) : Option R :=
  (call.taskBuilder seed).bind BlockTask.outcome

def Complete (call : BlockingCall S R) : Prop :=
  (call.results.map some).Perm (call.seeds.map call.resultOf)

structure Ok (call : BlockingCall S R) : Prop where
  counted : call.unfinished = call.working.card
  finished : call.producer = .returned → call.unfinished = 0
  worth : call.producer ≠ .raised → call.worth = seedOutcomes call.taskBuilder call.seeds
  unbuilt : call.producer ≠ .raised → ∀ seed ∈ call.seeds, call.taskBuilder seed = none →
    seed ∈ call.producer.remaining
  size : call.workers.length = call.concurrency
  doomed : call.doomed ≤ fatalSeeds call.taskBuilder call.seeds

theorem ok_begin (taskBuilder : S → Option (BlockTask R)) (concurrency : Nat) (seeds : List S) :
    (begin taskBuilder concurrency seeds).Ok where
  counted := by simp [begin, working, busy]
  finished := fun _ => rfl
  worth := by
    intro _
    simp [begin, BlockingCall.worth, pending, current, remaining,
      outcomes]
  unbuilt := fun _ seed member _ => member
  size := List.length_replicate
  doomed := by simp [begin, BlockingCall.doomed, working, busy, dead, current,
    remaining]

theorem Acts.raised_stays (acts : Acts capacity used call op used' call')
    (goesOn : call'.producer ≠ .raised) : call.producer ≠ .raised := by
  intro raised
  cases acts with
  | get isIdle first => exact goesOn raised
  | finish runs => exact goesOn raised
  | release ends unlocked => exact goesOn (by rw [raised]; rfl)
  | _ => simp_all

theorem Acts.remaining (acts : Acts capacity used call op used' call')
    (goesOn : call'.producer ≠ .raised) {seed : S} (unbuilt : call.taskBuilder seed = none)
    (member : seed ∈ call.producer.remaining) : seed ∈ call'.producer.remaining := by
  cases acts with
  | raise at_ fails => exact absurd rfl goesOn
  | build at_ builds =>
    rw [at_] at member
    rcases List.mem_cons.mp member with rfl | later
    · rw [unbuilt] at builds
      cases builds
    · exact later
  | get isIdle first => exact member
  | finish runs => exact member
  | release ends unlocked =>
    rw [remaining_notify]
    exact member
  | grant at_ fits | wait at_ full | allocate at_ fits | put at_ | join at_ | leave at_ finished =>
    simpa only [at_, remaining] using member

theorem Ok.acts (ok : call.Ok) (acts : Acts capacity used call op used' call') : call'.Ok := by
  obtain ⟨seeds, taskBuilder, concurrency, length⟩ := acts.arguments
  refine ⟨acts.unfinished ok.counted, ?_, ?_, ?_, ?_, ?_⟩
  · intro returned
    cases acts with
    | leave at_ finished => exact finished
    | get isIdle first | finish runs => exact ok.finished returned
    | release ends unlocked =>
      have before : call.producer = .returned := by
        cases producer : call.producer with
        | returned => rfl
        | _ =>
          rw [producer] at returned
          cases returned
      have none := ok.finished before
      simp only [none]
    | _ => cases returned
  · intro goesOn
    rw [acts.worth goesOn, seeds, taskBuilder]
    exact ok.worth (acts.raised_stays goesOn)
  · intro goesOn seed member unbuilt
    rw [seeds] at member
    rw [taskBuilder] at unbuilt
    exact acts.remaining goesOn unbuilt (ok.unbuilt (acts.raised_stays goesOn) seed member unbuilt)
  · rw [length, concurrency]
    exact ok.size
  · rw [seeds, taskBuilder]
    exact acts.doomed.trans ok.doomed

theorem Ok.results_perm (ok : call.Ok) (returned : call.producer = .returned) :
    (call.results : Multiset R) = seedOutcomes call.taskBuilder call.seeds := by
  have goesOn : call.producer ≠ .raised := by
    rw [returned]
    exact fun same => nomatch same
  have nothing : call.working = 0 := by
    rw [← Multiset.card_eq_zero, ← ok.counted]
    exact ok.finished returned
  have noQueue : (call.queue : Multiset (BlockTask R)) = 0 :=
    Multiset.le_zero.mp (nothing ▸ Multiset.le_add_right _ _)
  have noBusy : (call.workers.map busy).sum = 0 :=
    Multiset.le_zero.mp (nothing ▸ Multiset.le_add_left _ _)
  have noPending : (call.workers.map pending).sum = 0 := by
    rw [Multiset.eq_zero_iff_forall_notMem]
    intro task member
    obtain ⟨worker, isWorker, pending⟩ := (mem_sum_map _ _ _).mp member
    have busy : task ∈ worker.busy := by
      cases worker with
      | running other => exact pending
      | _ => cases pending
    have inSum := (mem_sum_map Worker.busy task call.workers).mpr ⟨worker, isWorker, busy⟩
    rw [noBusy] at inSum
    exact Multiset.notMem_zero task inSum
  rw [← ok.worth goesOn]
  simp [BlockingCall.worth, returned, current, remaining, noQueue, noPending,
    outcomes, seedOutcomes]

theorem Ok.complete_iff (ok : call.Ok) (returned : call.producer = .returned) :
    call.Complete ↔ ∀ seed ∈ call.seeds, (call.resultOf seed).isSome = true := by
  have results : call.results.Perm (call.seeds.filterMap call.resultOf) :=
    Multiset.coe_eq_coe.mp (ok.results_perm returned)
  constructor
  · intro complete seed member
    have inResults := complete.symm.subset (List.mem_map_of_mem member)
    obtain ⟨result, -, same⟩ := List.mem_map.mp inResults
    rw [← same]
    rfl
  · intro allReturn
    have listed : (call.seeds.filterMap call.resultOf).map some =
        call.seeds.map call.resultOf := by
      rw [List.map_filterMap_some_eq_filter_map_isSome, List.filter_eq_self]
      intro result member
      obtain ⟨seed, isSeed, rfl⟩ := List.mem_map.mp member
      exact allReturn seed isSeed
    unfold Complete
    rw [← listed]
    exact results.map some

end BlockingCall

/-! ## All calls -/

namespace BlockingSystem

open BlockingCall

variable {s s' : BlockingSystem S R}

variable {op : SystemOp S R} {call : BlockingCall S R}

theorem step_cases (step : Step s op s') :
    (∃ taskBuilder concurrency seeds, op = .begin taskBuilder concurrency seeds ∧
      s' = { s with calls := s.calls ++ [.begin taskBuilder concurrency seeds] }) ∨
    ∃ index callOp call used call', op = .act index callOp ∧ s.calls[index]? = some call ∧
      Acts s.capacity s.globalUsed call callOp used call' ∧
      s' = { s with globalUsed := used, calls := s.calls.set index call' } := by
  cases op with
  | begin taskBuilder concurrency seeds =>
    cases step
    exact .inl ⟨taskBuilder, concurrency, seeds, rfl, rfl⟩
  | act index callOp =>
    obtain ⟨call, found, step⟩ := Option.bind_eq_some_iff.mp step
    obtain ⟨⟨used, call'⟩, acts, same⟩ := Option.bind_eq_some_iff.mp step
    cases same
    exact .inr ⟨index, callOp, call, used, call', rfl, found, acts_of_act acts, rfl⟩

theorem ok_step (step : Step s op s') (ok : ∀ call ∈ s.calls, call.Ok) :
    ∀ call ∈ s'.calls, call.Ok := by
  intro other member
  rcases step_cases step with ⟨taskBuilder, concurrency, seeds, -, rfl⟩ |
    ⟨index, callOp, call, used, call', -, found, acts, rfl⟩
  · rcases List.mem_append.mp member with old | new
    · exact ok other old
    · rw [List.mem_singleton.mp new]
      exact ok_begin taskBuilder concurrency seeds
  · rcases List.mem_or_eq_of_mem_set member with old | rfl
    · exact ok other old
    · exact (ok call (List.mem_of_getElem? found)).acts acts

theorem ok_of_trace {capacity : Nat} {ops : List (SystemOp S R)}
    (run : Trace Step (init capacity) ops s) : ∀ call ∈ s.calls, call.Ok := by
  refine run.invariant (P := fun s => ∀ call ∈ s.calls, call.Ok)
    (fun _ _ _ step before => ok_step step before) ?_
  intro other none
  cases none

/-- A call that returns has one result for every seed exactly when no task of it has raised. -/
theorem returned_complete_iff (capacity : Nat) (ops : List (SystemOp S R))
    (s : BlockingSystem S R) (run : Trace Step (init capacity) ops s) (call : BlockingCall S R)
    (member : call ∈ s.calls) (returned : call.producer = .returned) :
    call.Complete ↔ ∀ seed ∈ call.seeds, (call.resultOf seed).isSome = true := by
  exact (ok_of_trace run call member).complete_iff returned

def zeroRaises (seed : Nat) : Option (BlockTask Nat) :=
  some ⟨1, if seed = 0 then none else some seed⟩

def produceOne : List (SystemOp Nat Nat) :=
  [.act 0 .build, .act 0 .check, .act 0 .allocate, .act 0 .put]

/-- One call with two workers, each of which runs one of two tasks. -/
def twoSeeds (first second : Nat) : List (SystemOp Nat Nat) :=
  .begin zeroRaises 2 [first, second] :: produceOne ++ produceOne ++
    [.act 0 .join, .act 0 (.get 0), .act 0 (.get 1), .act 0 (.finish 1), .act 0 (.finish 0),
      .act 0 (.release 1), .act 0 (.release 0), .act 0 .join]

def hasReturned (seeds results : List Nat) (s : BlockingSystem Nat Nat) : Bool :=
  s.calls.head?.any fun call =>
    (match call.producer with
      | .returned => true
      | _ => false) && call.seeds == seeds && call.results == results

theorem hasReturned_spec {seeds results : List Nat} {s : BlockingSystem Nat Nat}
    (returned : hasReturned seeds results s = true) :
    ∃ call ∈ s.calls, call.producer = .returned ∧ call.seeds = seeds ∧
      call.results = results := by
  obtain ⟨call, isFirst, facts⟩ := (Option.any_eq_true ..).mp returned
  simp only [Bool.and_eq_true, beq_iff_eq] at facts
  obtain ⟨⟨atEnd, isSeeds⟩, isResults⟩ := facts
  refine ⟨call, List.mem_of_head? isFirst, ?_, isSeeds, isResults⟩
  split at atEnd
  · assumption
  · cases atEnd

theorem returned_complete_two :
    ∃ s, Trace Step (init 2) (twoSeeds 5 7) s ∧ ∃ call ∈ s.calls,
      call.producer = .returned ∧ call.results = [7, 5] ∧
      (call.Complete ↔ ∀ seed ∈ call.seeds, (call.resultOf seed).isSome = true) := by
  have runs : ((twoSeeds 5 7).foldlM step (init 2)).any (hasReturned [5, 7] [7, 5]) = true := by
    decide +kernel
  obtain ⟨s, ran, returns⟩ := (Option.any_eq_true ..).mp runs
  obtain ⟨call, member, returned, -, results⟩ := hasReturned_spec returns
  have run : Trace Step (init 2) (twoSeeds 5 7) s := Trace.of_foldlM ran
  exact ⟨s, run, call, member, returned, results,
    returned_complete_iff 2 _ s run call member returned⟩

/-- The task of the first of two seeds raises, and the call returns the other result alone. -/
theorem returned_without_failed :
    ∃ s, Trace Step (init 2) (twoSeeds 0 7) s ∧ ∃ call ∈ s.calls,
      call.producer = .returned ∧ call.seeds = [0, 7] ∧ call.results = [7] ∧
      ¬ call.Complete := by
  have runs : ((twoSeeds 0 7).foldlM step (init 2)).any (hasReturned [0, 7] [7]) = true := by
    decide +kernel
  obtain ⟨s, ran, returns⟩ := (Option.any_eq_true ..).mp runs
  obtain ⟨call, member, returned, seeds, results⟩ := hasReturned_spec returns
  refine ⟨s, Trace.of_foldlM ran, call, member, returned, seeds, results, ?_⟩
  intro complete
  have sameLength := complete.length_eq
  rw [List.length_map, List.length_map, seeds, results] at sameLength
  cases sameLength

/-! ## The bytes in use -/

theorem held_begin (taskBuilder : S → Option (BlockTask R)) (concurrency : Nat) (seeds : List S) :
    (begin taskBuilder concurrency seeds).held = 0 := by
  simp [begin, held, working, admitted, busy]

theorem heldBudget_of_cons {call call' : BlockingCall S R} {task : BlockTask R}
    (held : call'.held = task ::ₘ call.held) :
    call'.heldBudget = task.budget + call.heldBudget := by
  rw [heldBudget, held, Multiset.map_cons, Multiset.sum_cons]
  rfl

theorem change_bytes {used used' others : Nat} {call call' : BlockingCall S R}
    (change : Change used call used' call') (before : used = call.heldBudget + others) :
    used' = call'.heldBudget + others := by
  cases change with
  | same held bytes => rw [bytes, before, heldBudget, heldBudget, held]
  | take task held bytes _ =>
    rw [heldBudget_of_cons held]
    omega
  | release task held bytes _ =>
    rw [heldBudget_of_cons held] at before
    omega

theorem bytes_step (step : Step s op s') (bytes : s.globalUsed = (s.calls.map heldBudget).sum) :
    s'.globalUsed = (s'.calls.map heldBudget).sum := by
  rcases step_cases step with ⟨taskBuilder, concurrency, seeds, -, rfl⟩ |
    ⟨index, callOp, call, used, call', -, found, acts, rfl⟩
  · simp [bytes, heldBudget, held_begin]
  · obtain ⟨others, before, after⟩ := exists_sum_map_set heldBudget _ _ _ found
    rw [after]
    exact change_bytes acts.change (bytes.trans before)

/-- `allocate` looks at the capacity again, whatever `can_admit` has found. -/
theorem used_le_step (step : Step s op s') (bound : s.globalUsed ≤ s.capacity) :
    s'.capacity = s.capacity ∧ s'.globalUsed ≤ s.capacity := by
  rcases step_cases step with ⟨taskBuilder, concurrency, seeds, -, rfl⟩ |
    ⟨index, callOp, call, used, call', -, found, acts, rfl⟩
  · exact ⟨rfl, bound⟩
  · refine ⟨rfl, ?_⟩
    cases acts with
    | allocate at_ fits => exact fits
    | release ends unlocked => exact (Nat.sub_le _ _).trans bound
    | _ => exact bound

/-- A task that a worker still has is among those the bytes in use are for. -/
theorem budget_le_sum (member : call ∈ s.calls) {task : BlockTask R}
    (releasing : .releasing task ∈ call.workers) : task.budget ≤ (s.calls.map heldBudget).sum := by
  have busy : task ∈ (call.workers.map busy).sum :=
    (mem_sum_map busy task call.workers).mpr
      ⟨.releasing task, releasing, Multiset.mem_singleton_self task⟩
  have inHeld : task ∈ call.held :=
    Multiset.mem_add.mpr (Or.inr (Multiset.mem_add.mpr (Or.inr busy)))
  have own : task.budget ≤ call.heldBudget :=
    Multiset.le_sum_of_mem (Multiset.mem_map_of_mem BlockTask.budget inHeld)
  exact own.trans (List.single_le_sum (fun _ _ => Nat.zero_le _) _ (List.mem_map_of_mem member))

/-- In every run of any number of calls the bytes in use are the budgets of the tasks that are
admitted and not released; they stay within the capacity, and no release takes off more than
there is. -/
theorem globalUsed_accounts (capacity : Nat) (ops : List (SystemOp S R)) (s : BlockingSystem S R)
    (run : Trace Step (init capacity) ops s) :
    s.globalUsed = (s.calls.map heldBudget).sum ∧
      s.capacity = capacity ∧ s.globalUsed ≤ capacity ∧
      ∀ call ∈ s.calls, ∀ task, .releasing task ∈ call.workers → task.budget ≤ s.globalUsed := by
  have bytes : s.globalUsed = (s.calls.map heldBudget).sum :=
    run.invariant (P := fun s => s.globalUsed = (s.calls.map heldBudget).sum)
      (fun _ _ _ step before => bytes_step step before) rfl
  have bound : s.capacity = capacity ∧ s.globalUsed ≤ capacity := by
    refine run.invariant (P := fun s => s.capacity = capacity ∧ s.globalUsed ≤ capacity) ?_
      ⟨rfl, Nat.zero_le _⟩
    rintro before op after step ⟨same, within⟩
    obtain ⟨kept, within⟩ := used_le_step step (same.symm ▸ within)
    exact ⟨kept.trans same, same ▸ within⟩
  refine ⟨bytes, bound.1, bound.2, ?_⟩
  intro call member task releasing
  rw [bytes]
  exact budget_le_sum member releasing

def releasesFirst (budget : Nat) (s : BlockingSystem Nat Nat) : Bool :=
  s.calls.head?.any fun call =>
    call.workers.any fun worker =>
      match worker with
      | .releasing task => task.budget == budget
      | _ => false

/-- A task has raised; its worker is in the `finally` block. -/
def raisedTask : List (SystemOp Nat Nat) :=
  .begin zeroRaises 1 [0] :: produceOne ++ [.act 0 (.get 0), .act 0 (.finish 0)]

theorem globalUsed_accounts_raised :
    ∃ s, Trace Step (init 1) raisedTask s ∧ s.globalUsed ≤ 1 ∧ 1 ≤ s.globalUsed := by
  have runs : (raisedTask.foldlM step (init 1)).any (releasesFirst 1) = true := by
    decide +kernel
  obtain ⟨s, ran, releases⟩ := (Option.any_eq_true ..).mp runs
  have run : Trace Step (init 1) raisedTask s := Trace.of_foldlM ran
  obtain ⟨-, -, within, covered⟩ := globalUsed_accounts 1 raisedTask s run
  obtain ⟨call, isFirst, releases⟩ := (Option.any_eq_true ..).mp releases
  obtain ⟨worker, isWorker, releases⟩ := List.any_eq_true.mp releases
  split at releases
  · rename_i task
    have budget : task.budget = 1 := beq_iff_eq.mp releases
    exact ⟨s, run, within, budget ▸ covered call (List.mem_of_head? isFirst) task isWorker⟩
  · cases releases

/-! ## Waiting for capacity -/

def heldByOthers (s : BlockingSystem S R) (index : Nat) : Nat :=
  ((s.calls.eraseIdx index).map heldBudget).sum

/-- A call begins only with more workers than tasks that raise, and a check is made only when the
budget fits beside what the other calls hold. -/
def LeavesRoom (s : BlockingSystem S R) : SystemOp S R → Prop
  | .begin taskBuilder concurrency seeds => fatalSeeds taskBuilder seeds < concurrency
  | .act index .check => ∀ call task seeds, s.calls[index]? = some call →
      call.producer = .checking task seeds → task.budget + s.heldByOthers index ≤ s.capacity
  | _ => True

def RoomyStep (s : BlockingSystem S R) (op : SystemOp S R) (s' : BlockingSystem S R) : Prop :=
  Step s op s' ∧ s.LeavesRoom op

structure Inv (s : BlockingSystem S R) : Prop where
  bytes : s.globalUsed = (s.calls.map heldBudget).sum
  waits : ∀ call ∈ s.calls, ∀ task seeds, call.producer = .waiting task seeds → call.held ≠ 0
  survive : ∀ call ∈ s.calls, fatalSeeds call.taskBuilder call.seeds < call.concurrency

theorem sum_heldBudget {index : Nat} (found : s.calls[index]? = some call) :
    (s.calls.map heldBudget).sum = call.heldBudget + s.heldByOthers index := by
  obtain ⟨bound, rfl⟩ := List.getElem?_eq_some_iff.mp found
  have split := (List.getElem_cons_eraseIdx_perm bound).map heldBudget
  rw [← split.sum_eq, List.map_cons, List.sum_cons]
  rfl

theorem Inv.step (inv : Inv s) (step : RoomyStep s op s') : Inv s' := by
  obtain ⟨step, room⟩ := step
  have bytes := bytes_step step inv.bytes
  rcases step_cases step with ⟨taskBuilder, concurrency, seeds', rfl, rfl⟩ |
    ⟨index, callOp, call, used, call', rfl, found, acts, rfl⟩
  · refine ⟨bytes, fun other member task seeds waits => ?_, fun other member => ?_⟩
    · rcases List.mem_append.mp member with old | new
      · exact inv.waits other old task seeds waits
      · rw [List.mem_singleton.mp new] at waits
        cases waits
    · rcases List.mem_append.mp member with old | new
      · exact inv.survive other old
      · rw [List.mem_singleton.mp new]
        exact room
  · have isCall := List.mem_of_getElem? found
    refine ⟨bytes, fun other member task seeds waits => ?_, fun other member => ?_⟩
    · rcases List.mem_or_eq_of_mem_set member with old | rfl
      · exact inv.waits other old task seeds waits
      · obtain ⟨held, -, origin⟩ := acts.waiting waits
        rw [held]
        rcases origin with before | ⟨rfl, checks, full⟩
        · exact inv.waits call isCall task seeds before
        · -- what the other calls hold leaves room, so the call itself holds something
          have fits := room call task seeds found checks
          rw [inv.bytes, sum_heldBudget found] at full
          intro nothing
          have zero : call.heldBudget = 0 := by simp [heldBudget, nothing]
          omega
    · rcases List.mem_or_eq_of_mem_set member with old | rfl
      · exact inv.survive other old
      · obtain ⟨seeds, taskBuilder, concurrency, -⟩ := acts.arguments
        rw [seeds, taskBuilder, concurrency]
        exact inv.survive call isCall

/-- If every call has more workers than tasks that raise, and every budget that is checked fits
beside what the other calls hold, then a producer waits only while an admitted task of its own call
is queued or with a worker, and a worker of the call is left. -/
theorem waiting_has_task (capacity : Nat) (ops : List (SystemOp S R)) (s : BlockingSystem S R)
    (run : Trace RoomyStep (init capacity) ops s) (call : BlockingCall S R)
    (member : call ∈ s.calls) (task : BlockTask R) (seeds : List S)
    (waits : call.producer = .waiting task seeds) :
    (∃ admitted, admitted ∈ call.queue ∨ .running admitted ∈ call.workers ∨
      .releasing admitted ∈ call.workers) ∧
    ∃ worker ∈ call.workers, dead worker = 0 := by
  have start : Inv (init capacity : BlockingSystem S R) :=
    ⟨rfl, (fun _ none => nomatch none), fun _ none => nomatch none⟩
  have inv : Inv s := run.invariant (fun _ _ _ step before => before.step step) start
  have ok := ok_of_trace (run.mono fun _ _ _ step => step.1) call member
  obtain ⟨admitted, inHeld⟩ := Multiset.exists_mem_of_ne_zero
    (inv.waits call member task seeds waits)
  refine ⟨⟨admitted, ?_⟩, exists_alive ok.size ok.doomed (inv.survive call member)⟩
  simp only [held, working, waits, Producer.admitted, zero_add, Multiset.mem_add,
    Multiset.mem_coe] at inHeld
  rcases inHeld with queued | inBusy
  · exact .inl queued
  · obtain ⟨worker, isWorker, busy⟩ := (mem_sum_map _ _ _).mp inBusy
    cases worker with
    | running other =>
      rw [Multiset.mem_singleton.mp busy]
      exact .inr (.inl isWorker)
    | releasing other =>
      rw [Multiset.mem_singleton.mp busy]
      exact .inr (.inr isWorker)
    | _ => cases busy

def roomyStep (s : BlockingSystem S R) (op : SystemOp S R) : Option (BlockingSystem S R) :=
  match op with
  | .begin taskBuilder concurrency seeds =>
      if fatalSeeds taskBuilder seeds < concurrency then s.step op else none
  | .act index .check =>
      match s.calls[index]? with
      | none => none
      | some call =>
          match call.producer with
          | .checking task _ =>
              if task.budget + s.heldByOthers index ≤ s.capacity then s.step op else none
          | _ => none
  | _ => s.step op

theorem roomyStep_spec (happens : s.roomyStep op = some s') : RoomyStep s op s' := by
  unfold roomyStep at happens
  split at happens
  · obtain ⟨survive, happens⟩ := Option.ite_none_right_eq_some.mp happens
    exact ⟨happens, survive⟩
  · rename_i index
    split at happens
    · cases happens
    · rename_i call found
      split at happens
      · rename_i task seeds checks
        split at happens
        · rename_i fits
          refine ⟨happens, ?_⟩
          intro other otherTask otherSeeds otherFound otherChecks
          rw [found] at otherFound
          cases otherFound
          rw [checks] at otherChecks
          cases otherChecks
          exact fits
        · cases happens
      · cases happens
  · rename_i notBegin notCheck
    refine ⟨happens, ?_⟩
    unfold LeavesRoom
    split
    · exact absurd rfl (notBegin _ _ _)
    · exact absurd rfl (notCheck _)
    · exact trivial

/-- The call at the index waits; so many tasks are in its queue, and no worker has one. -/
def waitsWith (index queued : Nat) (s : BlockingSystem Nat Nat) : Bool :=
  s.calls[index]?.any fun call =>
    (match call.producer with
      | .waiting _ _ => true
      | _ => false) && call.queue.length == queued &&
    call.workers.all fun worker =>
      match worker with
      | .idle => true
      | _ => false

theorem waitsWith_spec {index queued : Nat} {s : BlockingSystem Nat Nat}
    (waits : waitsWith index queued s = true) :
    ∃ call ∈ s.calls, ∃ task seeds, call.producer = .waiting task seeds ∧
      call.queue.length = queued ∧ ∀ worker ∈ call.workers, worker = .idle := by
  obtain ⟨call, found, facts⟩ := (Option.any_eq_true ..).mp waits
  simp only [Bool.and_eq_true, beq_iff_eq, List.all_eq_true] at facts
  obtain ⟨⟨isWaiting, length⟩, idle⟩ := facts
  refine ⟨call, List.mem_of_getElem? found, ?_⟩
  split at isWaiting
  · rename_i task seeds producer
    refine ⟨task, seeds, producer, length, ?_⟩
    intro worker member
    have isIdle := idle worker member
    cases worker with
    | idle => rfl
    | _ => cases isIdle
  · cases isWaiting

/-- A call that has put one task into its queue waits for the second. -/
def waitsForOwn : List (SystemOp Nat Nat) :=
  .begin zeroRaises 1 [5, 7] :: produceOne ++ [.act 0 .build, .act 0 .check]

theorem waiting_has_task_own :
    ∃ s, Trace RoomyStep (init 1) waitsForOwn s ∧ ∃ call ∈ s.calls, ∃ task seeds,
      call.producer = .waiting task seeds ∧
      (∃ admitted, admitted ∈ call.queue ∨ .running admitted ∈ call.workers ∨
        .releasing admitted ∈ call.workers) ∧
      ∃ worker ∈ call.workers, dead worker = 0 := by
  have runs : (waitsForOwn.foldlM roomyStep (init 1)).any (waitsWith 0 1) = true := by
    decide +kernel
  obtain ⟨s, ran, waits⟩ := (Option.any_eq_true ..).mp runs
  obtain ⟨call, member, task, seeds, producer, -, -⟩ := waitsWith_spec waits
  have run : Trace RoomyStep (init 1) waitsForOwn s :=
    (Trace.of_foldlM ran).mono fun _ _ _ => roomyStep_spec
  exact ⟨s, run, call, member, task, seeds, producer,
    waiting_has_task 1 _ s run call member task seeds producer⟩

/-- Two calls with one task each; the first takes the capacity before the second checks. -/
def waitsForOther : List (SystemOp Nat Nat) :=
  [.begin zeroRaises 1 [5], .begin zeroRaises 1 [7]] ++ produceOne ++
    [.act 1 .build, .act 1 .check]

/-- The second call waits on its own condition and has no task that could notify it. -/
theorem waiting_without_task :
    ∃ s, Trace Step (init 1) waitsForOther s ∧ ∃ call ∈ s.calls, ∃ task seeds,
      call.producer = .waiting task seeds ∧ call.queue = [] ∧
      ∀ worker ∈ call.workers, worker = .idle := by
  have runs : (waitsForOther.foldlM step (init 1)).any (waitsWith 1 0) = true := by
    decide +kernel
  obtain ⟨s, ran, waits⟩ := (Option.any_eq_true ..).mp runs
  obtain ⟨call, member, task, seeds, producer, none, idle⟩ := waitsWith_spec waits
  exact ⟨s, Trace.of_foldlM ran, call, member, task, seeds, producer,
    List.length_eq_zero_iff.mp none, idle⟩

end BlockingSystem

end Kalypso.Query
