import Kalypso.Lib.Trace
import Kalypso.Query.Stage
import Mathlib.Data.Rat.Floor
import Mathlib.Tactic.Linarith

/-!
# The monitor of the scheduler

`QueryProcessor._monitor_stuck_scheduler` polls the scheduler and unpins all pinned requests when
it has found it stuck, or has had no answer, often enough in a row.  Two counters and the time of
the last bulk unpin are all that it remembers from one poll to the next.

One turn of the loop is a function of what is remembered and of a `Poll`: what the poll gave, which
requests are pinned at that time, the clock, and whether the engine carries out the unpin.
-/

set_option autoImplicit false

namespace Kalypso.Query

open Kalypso.Lib

def stuckConfirmationCount : Nat := 2

def unpinCooldownSec : ℚ := 10

inductive PollOutcome where
  | stuck
  | notStuck
  | timeout
  | otherError
deriving DecidableEq, Repr

/-- One turn of the loop, from outside.  `now` is the reading of the clock before the unpin and
`done` the one after it. -/
structure Poll where
  outcome : PollOutcome
  pinned : List RequestId
  now : ℚ
  unpinSucceeds : Bool
  done : ℚ
  monotonic : now ≤ done

structure BulkUnpin where
  requests : List RequestId
  issued : ℚ
  done : Option ℚ
deriving DecidableEq

structure StuckMonitor where
  stuckChecks : Nat := 0
  timeoutChecks : Nat := 0
  lastUnpinAt : ℚ := 0

namespace StuckMonitor

/-- The end of the turn once a counter is high enough.  After timeouts both counters are cleared,
after stuck polls that of the stuck polls. -/
def bulkUnpin (m : StuckMonitor) (poll : Poll) (clearTimeouts : Bool) :
    StuckMonitor × Option BulkUnpin :=
  if poll.pinned = [] then (m, none)
  else if poll.now - m.lastUnpinAt < unpinCooldownSec then (m, none)
  else if poll.unpinSucceeds then
    ({ stuckChecks := 0
       timeoutChecks := if clearTimeouts then 0 else m.timeoutChecks
       lastUnpinAt := poll.done },
      some ⟨poll.pinned, poll.now, some poll.done⟩)
  else (m, some ⟨poll.pinned, poll.now, none⟩)

def check (m : StuckMonitor) (poll : Poll) : StuckMonitor × Option BulkUnpin :=
  match poll.outcome with
  | .timeout =>
      let m := { m with timeoutChecks := m.timeoutChecks + 1 }
      if m.timeoutChecks < stuckConfirmationCount then (m, none) else m.bulkUnpin poll true
  | .otherError => (m, none)
  | .notStuck => ({ m with timeoutChecks := 0, stuckChecks := 0 }, none)
  | .stuck =>
      let m := { m with timeoutChecks := 0, stuckChecks := m.stuckChecks + 1 }
      if m.stuckChecks < stuckConfirmationCount then (m, none) else m.bulkUnpin poll false

end StuckMonitor

structure MonitorRun where
  monitor : StuckMonitor := {}
  unpins : List BulkUnpin := []

namespace MonitorRun

def step (s : MonitorRun) (poll : Poll) : MonitorRun where
  monitor := (s.monitor.check poll).1
  unpins := s.unpins ++ (s.monitor.check poll).2.toList

def Step (s : MonitorRun) (poll : Poll) (s' : MonitorRun) : Prop := s' = s.step poll

end MonitorRun

/-! ## The cooldown -/

namespace StuckMonitor

variable {m : StuckMonitor} {poll : Poll}

structure Timed (m : StuckMonitor) (m' : StuckMonitor) (issued : Option BulkUnpin) : Prop where
  later : m.lastUnpinAt ≤ m'.lastUnpinAt
  cooled : ∀ unpin ∈ issued, m.lastUnpinAt + unpinCooldownSec ≤ unpin.issued
  noted : ∀ unpin ∈ issued, ∀ done ∈ unpin.done, done = m'.lastUnpinAt

theorem timed_of_same {m' : StuckMonitor} (same : m'.lastUnpinAt = m.lastUnpinAt) :
    Timed m m' none :=
  ⟨same.ge, fun _ none => (nomatch none), fun _ none => (nomatch none)⟩

theorem bulkUnpin_timed (m : StuckMonitor) (poll : Poll) (clearTimeouts : Bool) :
    Timed m (m.bulkUnpin poll clearTimeouts).1 (m.bulkUnpin poll clearTimeouts).2 := by
  unfold bulkUnpin
  split
  · exact timed_of_same rfl
  · split
    · exact timed_of_same rfl
    · rename_i cooled
      have apart : m.lastUnpinAt + unpinCooldownSec ≤ poll.now := by linarith
      have positive : (0 : ℚ) ≤ unpinCooldownSec := by norm_num [unpinCooldownSec]
      split
      · refine ⟨?_, ?_, ?_⟩
        · have ordered := poll.monotonic
          change m.lastUnpinAt ≤ poll.done
          linarith
        · rintro unpin ⟨rfl⟩
          exact apart
        · rintro unpin ⟨rfl⟩ done ⟨rfl⟩
          rfl
      · refine ⟨le_refl _, ?_, ?_⟩
        · rintro unpin ⟨rfl⟩
          exact apart
        · rintro unpin ⟨rfl⟩ done none
          cases none

theorem check_timed (m : StuckMonitor) (poll : Poll) :
    Timed m (m.check poll).1 (m.check poll).2 := by
  unfold check
  split
  · dsimp only
    split
    · exact timed_of_same rfl
    · obtain ⟨later, cooled, noted⟩ :=
        bulkUnpin_timed { m with timeoutChecks := m.timeoutChecks + 1 } poll true
      exact ⟨later, cooled, noted⟩
  · exact timed_of_same rfl
  · exact timed_of_same rfl
  · dsimp only
    split
    · exact timed_of_same rfl
    · obtain ⟨later, cooled, noted⟩ :=
        bulkUnpin_timed { m with timeoutChecks := 0, stuckChecks := m.stuckChecks + 1 } poll false
      exact ⟨later, cooled, noted⟩

end StuckMonitor

namespace MonitorRun

variable {s s' : MonitorRun}

/-- The second unpin is issued only when the cooldown after the first, if that succeeded,
is over. -/
def Apart (first second : BulkUnpin) : Prop :=
  ∀ done ∈ first.done, done + unpinCooldownSec ≤ second.issued

structure Cooled (s : MonitorRun) : Prop where
  apart : s.unpins.Pairwise Apart
  noted : ∀ unpin ∈ s.unpins, ∀ done ∈ unpin.done, done ≤ s.monitor.lastUnpinAt

theorem Cooled.step (cooled : s.Cooled) (poll : Poll) : (s.step poll).Cooled := by
  have timed := s.monitor.check_timed poll
  refine ⟨?_, ?_⟩
  · change (s.unpins ++ _).Pairwise Apart
    rw [List.pairwise_append]
    refine ⟨cooled.apart, ?_, ?_⟩
    · cases (s.monitor.check poll).2 with
      | none => exact List.Pairwise.nil
      | some unpin => exact List.pairwise_singleton _ _
    · intro first earlier second issued done succeeded
      have bound := cooled.noted first earlier done succeeded
      have waited := timed.cooled second (Option.mem_toList.mp issued)
      linarith
  · intro unpin member done succeeded
    cases List.mem_append.mp member with
    | inl earlier => exact (cooled.noted unpin earlier done succeeded).trans timed.later
    | inr issued => exact (timed.noted unpin (Option.mem_toList.mp issued) done succeeded).le

theorem cooled_of_trace {polls : List Poll} (run : Trace Step {} polls s) : s.Cooled := by
  refine run.invariant (P := Cooled) ?_ ⟨List.Pairwise.nil, fun _ none => nomatch none⟩
  rintro before poll after rfl cooled
  exact cooled.step poll

end MonitorRun

/-! ## What the counters count -/

def trailing (outcome : PollOutcome) (polls : List Poll) : Nat :=
  (polls.reverse.takeWhile fun poll => poll.outcome = outcome).length

theorem trailing_concat (outcome : PollOutcome) (polls : List Poll) (poll : Poll) :
    trailing outcome (polls ++ [poll]) =
      if poll.outcome = outcome then trailing outcome polls + 1 else 0 := by
  unfold trailing
  rw [List.reverse_append, List.reverse_singleton, List.singleton_append]
  by_cases same : poll.outcome = outcome
  · rw [List.takeWhile_cons_of_pos (by simpa using same), if_pos same, List.length_cons]
  · rw [List.takeWhile_cons_of_neg (by simpa using same), if_neg same, List.length_nil]

/-- The most recent polls, as many as confirm a suspicion, were all stuck or all timeouts. -/
def Confirmed (polls : List Poll) : Prop :=
  stuckConfirmationCount ≤ trailing .stuck polls ∨
    stuckConfirmationCount ≤ trailing .timeout polls

namespace StuckMonitor

variable {m : StuckMonitor} {poll : Poll}

/-- Neither counter is above the number of polls at the end that it should count. -/
structure CountsRecent (m : StuckMonitor) (polls : List Poll) : Prop where
  stuck : m.stuckChecks ≤ trailing .stuck polls
  timeouts : m.timeoutChecks ≤ trailing .timeout polls

def Clean (m : StuckMonitor) (poll : Poll) : Prop :=
  (poll.outcome = .timeout → m.stuckChecks = 0) ∧
    (poll.outcome = .otherError → m.stuckChecks = 0 ∧ m.timeoutChecks = 0)

theorem bulkUnpin_counts (m : StuckMonitor) (poll : Poll) (clearTimeouts : Bool) :
    (m.bulkUnpin poll clearTimeouts).1.stuckChecks ≤ m.stuckChecks ∧
      (m.bulkUnpin poll clearTimeouts).1.timeoutChecks ≤ m.timeoutChecks := by
  unfold bulkUnpin
  split
  · exact ⟨le_refl _, le_refl _⟩
  · split
    · exact ⟨le_refl _, le_refl _⟩
    · split
      · refine ⟨Nat.zero_le _, ?_⟩
        dsimp only
        split
        · exact Nat.zero_le _
        · exact le_refl _
      · exact ⟨le_refl _, le_refl _⟩

theorem CountsRecent.bulkUnpin {polls : List Poll} (counts : m.CountsRecent polls)
    (clearTimeouts : Bool) : (m.bulkUnpin poll clearTimeouts).1.CountsRecent polls := by
  obtain ⟨stuck, timeouts⟩ := m.bulkUnpin_counts poll clearTimeouts
  exact ⟨stuck.trans counts.stuck, timeouts.trans counts.timeouts⟩

/-- A clean turn keeps the counters below the rows they count, and issues an unpin only if the row
is long enough. -/
theorem CountsRecent.check {polls : List Poll} (counts : m.CountsRecent polls)
    (clean : m.Clean poll) :
    (m.check poll).1.CountsRecent (polls ++ [poll]) ∧
      ((m.check poll).2.isSome → Confirmed (polls ++ [poll])) := by
  have stuckRow := trailing_concat .stuck polls poll
  have timeoutRow := trailing_concat .timeout polls poll
  unfold StuckMonitor.check
  cases outcome : poll.outcome with
  | stuck =>
    rw [outcome, if_pos rfl] at stuckRow
    have counted : CountsRecent { m with timeoutChecks := 0, stuckChecks := m.stuckChecks + 1 }
        (polls ++ [poll]) :=
      ⟨stuckRow ▸ Nat.succ_le_succ counts.stuck, Nat.zero_le _⟩
    dsimp only
    split
    · exact ⟨counted, fun none => nomatch none⟩
    · rename_i enough
      exact ⟨counted.bulkUnpin false, fun _ => Or.inl ((not_lt.mp enough).trans counted.stuck)⟩
  | notStuck => exact ⟨⟨Nat.zero_le _, Nat.zero_le _⟩, fun none => nomatch none⟩
  | timeout =>
    rw [outcome, if_pos rfl] at timeoutRow
    have counted : CountsRecent { m with timeoutChecks := m.timeoutChecks + 1 }
        (polls ++ [poll]) :=
      ⟨(clean.1 outcome).symm ▸ Nat.zero_le _, timeoutRow ▸ Nat.succ_le_succ counts.timeouts⟩
    dsimp only
    split
    · exact ⟨counted, fun none => nomatch none⟩
    · rename_i enough
      exact ⟨counted.bulkUnpin true, fun _ => Or.inr ((not_lt.mp enough).trans counted.timeouts)⟩
  | otherError =>
    obtain ⟨noStuck, noTimeouts⟩ := clean.2 outcome
    have counted : m.CountsRecent (polls ++ [poll]) :=
      ⟨noStuck.le.trans (Nat.zero_le _), noTimeouts.le.trans (Nat.zero_le _)⟩
    exact ⟨counted, fun none => nomatch none⟩

end StuckMonitor

namespace MonitorRun

variable {s : MonitorRun}

def CleanStep (s : MonitorRun) (poll : Poll) (s' : MonitorRun) : Prop :=
  Step s poll s' ∧ s.monitor.Clean poll

theorem countsRecent_of_trace {polls : List Poll} (run : Trace CleanStep {} polls s) :
    s.monitor.CountsRecent polls := by
  refine run.history (P := fun polls s => s.monitor.CountsRecent polls) ?_
    ⟨Nat.zero_le _, Nat.zero_le _⟩
  rintro past before poll after ⟨rfl, clean⟩ counts
  exact (counts.check clean).1

/-- In every run, no bulk unpin is issued before the cooldown after a successful one is over; and
if no poll of the run, nor the one at hand, interrupts a row that is being counted, a bulk unpin is
issued only on confirmed evidence. -/
theorem unpins_on_evidence (polls : List Poll) (s : MonitorRun) (run : Trace Step {} polls s) :
    s.unpins.Pairwise Apart ∧
      (Trace CleanStep {} polls s → ∀ poll : Poll, s.monitor.Clean poll →
        (s.monitor.check poll).2.isSome → Confirmed (polls ++ [poll])) := by
  refine ⟨(cooled_of_trace run).apart, ?_⟩
  intro cleanRun poll clean issued
  exact ((countsRecent_of_trace cleanRun).check clean).2 issued

/-- A poll at this time, with one pinned request and an engine that answers at once. -/
def pollAt (outcome : PollOutcome) (now : ℚ) : Poll :=
  ⟨outcome, ["request"], now, true, now, le_refl now⟩

/-- Two stuck polls in a row, after an hour. -/
theorem unpins_on_evidence_two_stuck :
    ∃ s, Trace Step {} [pollAt .stuck 3600] s ∧
      (s.monitor.check (pollAt .stuck 3602)).2.isSome ∧
      Confirmed [pollAt .stuck 3600, pollAt .stuck 3602] := by
  have run : Trace Step {} [pollAt .stuck 3600] (step {} (pollAt .stuck 3600)) := .cons rfl (.nil _)
  have cleanRun : Trace CleanStep {} [pollAt .stuck 3600] (step {} (pollAt .stuck 3600)) :=
    .cons ⟨rfl, by decide, by decide⟩ (.nil _)
  have issued : ((step {} (pollAt .stuck 3600)).monitor.check (pollAt .stuck 3602)).2.isSome := by
    decide +kernel
  exact ⟨_, run, issued, (unpins_on_evidence _ _ run).2 cleanRun (pollAt .stuck 3602)
    ⟨by decide, by decide⟩ issued⟩

/-- Stuck, timeout, stuck: the counter of the stuck polls goes on counting over the timeout, and
all pinned requests are unpinned. -/
theorem unpin_without_evidence :
    ∃ s, Trace Step {} [pollAt .stuck 3600, pollAt .timeout 3602] s ∧
      (s.monitor.check (pollAt .stuck 3606)).2 = some ⟨["request"], 3606, some 3606⟩ ∧
      ¬ Confirmed ([pollAt .stuck 3600, pollAt .timeout 3602] ++ [pollAt .stuck 3606]) := by
  refine ⟨_, .cons rfl (.cons rfl (.nil _)), ?_, ?_⟩
  · decide +kernel
  · unfold Confirmed
    decide +kernel

end MonitorRun

end Kalypso.Query
