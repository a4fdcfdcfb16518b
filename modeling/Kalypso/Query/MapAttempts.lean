import Kalypso.Query.Operators
import Mathlib.Data.Finset.Filter

/-!
# How often a map runs for a tuple

A map whose output is cut short asks for one more attempt.  In the pipeline the tuple goes through
the queue and the stage calls the operator again; in the blocking path `_run_blocking_single` loops.
-/

set_option autoImplicit false

namespace Kalypso.Query

open Kalypso.Lib

namespace SemOperator

def runSingle (op : SemOperator) (s : Session) : Verdict × Session :=
  (if (op.runMap s).1 = none then .retry else .keepGoing, (op.runMap s).2)

/-- The attempts for one tuple: the next one is made when the last has asked for it. -/
def attempt (single : Session → Verdict × Session) (s : Session) : Nat → Option (Verdict × Session)
  | 0 => some (single s)
  | n + 1 =>
      match attempt single s n with
      | some (.retry, s) => some (single s)
      | _ => none

def runBlockingSingle (op : SemOperator) (s : Session) : Session :=
  if (op.runMap s).1 = none then runBlockingSingle op (op.runMap s).2 else (op.runMap s).2
termination_by if op.Retrying s.ctx.data then 0 else 1
decreasing_by
  rename_i retry
  rw [if_pos (runMap_retrying retry), if_neg fun retrying => runMap_of_retrying retrying retry]
  exact Nat.one_pos

variable {before others : Finset RequestId} {s : Session} {op : SemOperator}

/-! ## One request for each attempt -/

theorem unpinRecorded_data (s : Session) : s.unpinRecorded.ctx.data = s.ctx.data := by
  unfold Session.unpinRecorded
  split
  · rfl
  · rfl

theorem handleOutput_data (passed : Bool) (s : Session) :
    (op.handleOutput passed s).2.ctx.data = s.ctx.data := by
  have left : (op.handleOutput passed s).2 =
      if op.unpin || !passed then s.unpinRecorded else s := rfl
  rw [left]
  split
  · exact unpinRecorded_data s
  · rfl

variable (op : SemOperator) (previous : Option RequestId)

theorem unpinPrevious_ctx (own : RequestId) (s : Session) :
    (s.unpinPrevious previous own).ctx = s.ctx := by
  unfold Session.unpinPrevious
  split
  · split
    · rfl
    · rfl
  · rfl

theorem requeue_asked (output : CompletionResult) (s : Session) :
    (op.requeue previous output s).ctx.data.asked = s.ctx.data.asked := by
  cases pin : op.pin with
  | false => simp [requeue, pin, Session.setRetry]
  | true => simp [requeue, pin, Session.setRetry, Session.setPin, unpinPrevious_ctx, Session.unpin]

theorem settlePin_data (output : CompletionResult) (s : Session) :
    (op.settlePin previous output s).ctx.data = s.ctx.data := by
  unfold settlePin
  split
  · simp [Session.setPin, unpinPrevious_ctx]
  · split
    · exact unpinRecorded_data s
    · rfl

theorem clearRetry_asked (position : Int) (s : Session) :
    (s.clearRetry position).ctx.data.asked = s.ctx.data.asked := by
  unfold Session.clearRetry
  split
  · rfl
  · rfl

theorem runMap_asked (s : Session) : (op.runMap s).2.ctx.data.asked = s.ctx.data.asked + 1 := by
  simp only [runMap]
  split
  · rw [requeue_asked]
    rfl
  · rw [settlePin_data, clearRetry_asked]
    rfl

theorem callMap_asked (s : Session) : (op.callMap s).2.ctx.data.asked = s.ctx.data.asked + 1 := by
  have ran := op.runMap_asked s
  unfold callMap
  split
  · rename_i result
    rwa [result] at ran
  · rename_i result
    rw [result] at ran
    rw [handleOutput_data, ran]

/-! ## Two attempts -/

/-- One attempt makes one request, keeps the record of the tuple's pin, and is not
repeated twice. -/
structure Attempts (single : Session → Verdict × Session) : Prop where
  asked : ∀ s, (single s).2.ctx.data.asked = s.ctx.data.asked + 1
  recorded : ∀ before others s, s.Recorded before others → (single s).2.Recorded before others
  settles : ∀ s, (single s).1 = .retry → (single (single s).2).1 ≠ .retry

theorem callMap_attempts : Attempts op.callMap where
  asked := op.callMap_asked
  recorded := by
    intro before others s recorded
    have concludes : op.Concludes before others (op.callMap s) := callMap_concludes recorded
    have leaves := concludes.leaves
    revert leaves
    cases (op.callMap s).1 with
    | drop => exact Session.Released.recorded
    | keepGoing => exact id
    | retry => exact id
    | raise => exact id
  settles := by
    intro s retry again
    rw [callMap_retry_iff] at retry again
    rw [callMap_snd_of_retry retry] at again
    exact runMap_of_retrying (runMap_retrying retry) again

theorem runSingle_retry_iff : (op.runSingle s).1 = .retry ↔ (op.runMap s).1 = none := by
  unfold runSingle
  by_cases retry : (op.runMap s).1 = none
  · simp [retry]
  · simp [retry]

theorem runSingle_attempts : Attempts op.runSingle where
  asked := op.runMap_asked
  recorded := fun _ _ _ recorded => runMap_recorded recorded
  settles := by
    intro s retry again
    rw [runSingle_retry_iff] at retry again
    exact runMap_of_retrying (runMap_retrying retry) again

theorem attempt_zero {single : Session → Verdict × Session} :
    attempt single s 0 = some (single s) := rfl

theorem Attempts.cases {single : Session → Verdict × Session} (attempts : Attempts single)
    {n : Nat} {result : Verdict × Session} (made : attempt single s n = some result) :
    (n = 0 ∧ result = single s) ∨
      (n = 1 ∧ (single s).1 = .retry ∧ result = single (single s).2) := by
  have second : ∀ result, attempt single s 1 = some result →
      (single s).1 = .retry ∧ result = single (single s).2 := by
    intro result made
    simp only [attempt] at made
    split at made
    · rename_i first isFirst
      cases made
      rw [Option.some.inj isFirst]
      exact ⟨rfl, rfl⟩
    · cases made
  have third : ∀ n, attempt single s (n + 2) = none := by
    intro n
    induction n with
    | zero =>
      have last : attempt single s 2 = match attempt single s 1 with
        | some (.retry, s) => some (single s)
        | _ => none := rfl
      rw [last]
      split
      · rename_i s' isSecond
        obtain ⟨retry, same⟩ := second _ isSecond
        exact absurd (congrArg Prod.fst same).symm (attempts.settles s retry)
      · rfl
    | succ n ih =>
      have last : attempt single s (n + 3) = match attempt single s (n + 2) with
        | some (.retry, s) => some (single s)
        | _ => none := rfl
      rw [last, ih]
  match n with
  | 0 => exact .inl ⟨rfl, (Option.some.inj made).symm⟩
  | 1 => exact .inr ⟨rfl, second result made⟩
  | n + 2 =>
    rw [third n] at made
    cases made

theorem Attempts.bound {single : Session → Verdict × Session} (attempts : Attempts single)
    (recorded : s.Recorded before others) {n : Nat} {result : Verdict × Session}
    (made : attempt single s n = some result) :
    n < 2 ∧ result.2.ctx.data.asked = s.ctx.data.asked + (n + 1) ∧
      result.2.Recorded before others := by
  rcases attempts.cases made with ⟨rfl, rfl⟩ | ⟨rfl, retry, rfl⟩
  · exact ⟨by decide, attempts.asked s, attempts.recorded _ _ s recorded⟩
  · refine ⟨by decide, ?_, attempts.recorded _ _ _ (attempts.recorded _ _ s recorded)⟩
    rw [attempts.asked, attempts.asked]

theorem runBlockingSingle_eq (s : Session) :
    ∃ n, attempt op.runSingle s n = some (.keepGoing, op.runBlockingSingle s) := by
  have settled : ∀ s : Session, (op.runMap s).1 ≠ none →
      op.runSingle s = (.keepGoing, op.runBlockingSingle s) := by
    intro s whole
    rw [runBlockingSingle, if_neg whole, runSingle, if_neg whole]
  by_cases retry : (op.runMap s).1 = none
  · refine ⟨1, ?_⟩
    have whole := runMap_of_retrying (runMap_retrying retry)
    have first : attempt op.runSingle s 0 = some (.retry, (op.runMap s).2) := by
      rw [attempt_zero, runSingle, if_pos retry]
    have loops : op.runBlockingSingle s = op.runBlockingSingle (op.runMap s).2 := by
      rw [runBlockingSingle, if_pos retry]
    rw [attempt, first, loops]
    exact congrArg some (settled _ whole)
  · exact ⟨0, by rw [attempt_zero, settled s retry]⟩

/-- Of the requests pinned for the tuple `ctx` at most the one that it records is still pinned;
`before` were pinned at the start, some of them perhaps for others. -/
def AtMostRecorded (before : Finset RequestId) (ctx : SemContext TupleData) (s : Session) : Prop :=
  ∀ request ∈ s.pinned before,
    s.ctx.pinReqId = some request ∨ (request ∈ before ∧ ctx.pinReqId ≠ some request)

/-- A map makes at most two requests for a tuple, by either path, and after each attempt at most
the request that the tuple records is pinned for it. -/
theorem map_attempts_bounded (op : SemOperator) (ctx : SemContext TupleData)
    (before : Finset RequestId) :
    (∀ single ∈ [op.callMap, op.runSingle], ∀ n verdict s,
      attempt single ⟨ctx, []⟩ n = some (verdict, s) →
        s.ctx.data.asked = ctx.data.asked + (n + 1) ∧ n + 1 ≤ 2 ∧
          AtMostRecorded before ctx s) ∧
      (op.runBlockingSingle ⟨ctx, []⟩).ctx.data.asked ≤ ctx.data.asked + 2 ∧
      AtMostRecorded before ctx (op.runBlockingSingle ⟨ctx, []⟩) := by
  have start : Session.Recorded before (before.filter fun request => ctx.pinReqId ≠ some request)
      ⟨ctx, []⟩ := by
    intro request pinned
    by_cases own : ctx.pinReqId = some request
    · exact .inl own
    · exact .inr (Finset.mem_filter.mpr ⟨pinned, own⟩)
  have bounded : ∀ single, Attempts single → ∀ n verdict s,
      attempt single ⟨ctx, []⟩ n = some (verdict, s) →
        s.ctx.data.asked = ctx.data.asked + (n + 1) ∧ n + 1 ≤ 2 ∧
          AtMostRecorded before ctx s := by
    intro single attempts n verdict s made
    obtain ⟨few, asked, recorded⟩ := attempts.bound start made
    refine ⟨asked, few, ?_⟩
    intro request pinned
    rcases recorded request pinned with own | other
    · exact .inl own
    · exact .inr (Finset.mem_filter.mp other)
  refine ⟨?_, ?_⟩
  · intro single member
    rcases List.mem_cons.mp member with rfl | last
    · exact bounded _ (callMap_attempts op)
    · rw [List.mem_singleton.mp last]
      exact bounded _ (runSingle_attempts op)
  · obtain ⟨n, last⟩ := op.runBlockingSingle_eq ⟨ctx, []⟩
    obtain ⟨asked, few, recorded⟩ := bounded _ (runSingle_attempts op) n _ _ last
    refine ⟨?_, recorded⟩
    rw [asked]
    omega

def pinningMap : SemOperator where
  opClass := .semMap
  position := 0
  predicate := false
  pin := true
  estimateTokens := fun _ _ => 1

def cutTuple : SemContext TupleData where
  data := { responses := fun asked =>
    if asked = 0 then ⟨⟨[], "r2", .length⟩, [], none, 1, .empty⟩
    else ⟨⟨[], "r3", .other⟩, [], none, 1, .empty⟩ }
  pinReqId := some "r1"

theorem map_attempts_bounded_cut :
    ∃ s, attempt pinningMap.callMap ⟨cutTuple, []⟩ 1 = some (.keepGoing, s) ∧
      s.ctx.data.asked = 2 ∧ s.ctx.pinReqId = some "r3" ∧ AtMostRecorded {"r1"} cutTuple s := by
  refine ⟨_, rfl, rfl, rfl, ?_⟩
  exact ((map_attempts_bounded pinningMap cutTuple {"r1"}).1 _ List.mem_cons_self 1 .keepGoing _
    rfl).2.2

end SemOperator

/-! ## Retries of a stage -/

section Stage

variable {ops : List SemOperator}

/-- A task that comes back after a retry does not ask for another one by the same operator. -/
theorem runTask_retry_once {stage : Stage TupleData}
    (operators : stage.operators = ops.map SemOperator.toTupleOp) {task again : Task TupleData}
    {later later' : SemContext TupleData} {i : Nat} {retain retain' : Bool}
    (retry : stage.runTask task = .retry later i retain) (sameCtx : again.ctx = later)
    (sameOp : again.opIndex = i) : stage.runTask again ≠ .retry later' i retain' := by
  intro second
  rw [Stage.runTask, operators, ← List.map_drop] at retry second
  obtain ⟨-, j, tupleOp, earlier, isIndex, found, result, -⟩ := Stage.runOperators_retry retry
  rw [List.getElem?_map, List.getElem?_drop, ← isIndex] at found
  obtain ⟨op, atIndex, rfl⟩ := Option.map_eq_some_iff.mp found
  obtain ⟨bound, isOp⟩ := List.getElem?_eq_some_iff.mp atIndex
  rw [sameOp, sameCtx, List.drop_eq_getElem_cons bound, isOp, List.map_cons,
    Stage.runOperators] at second
  split at second
  · obtain ⟨-, k, -, -, isLater, -⟩ := Stage.runOperators_retry second
    omega
  · cases second
  · rename_i repeated
    obtain ⟨asked, isLater⟩ := SemOperator.result_retry result
    obtain ⟨askedAgain, -⟩ := SemOperator.result_retry repeated
    exact SemOperator.run_ne_retry_of_retry asked isLater askedAgain
  · cases second

end Stage

end Kalypso.Query
