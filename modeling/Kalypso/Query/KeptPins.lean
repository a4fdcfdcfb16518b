import Kalypso.Query.Operators

/-!
# Does a tuple that goes on keep its pin?

`handle_output` gives the recorded pin back whenever the output is not accepted.  For a predicate
that is the case in which the tuple is dropped.  A map or a classification is accepted by the same
test on its text, and goes on either way.
-/

set_option autoImplicit false

namespace Kalypso.Query

open Kalypso.Lib

def Session.Holding (before : Finset RequestId) (s : Session) : Prop :=
  ∃ request, s.ctx.pinReqId = some request ∧ request ∈ s.pinned before

theorem Session.not_holding_unpinRecorded {before : Finset RequestId} (s : Session) :
    ¬ s.unpinRecorded.Holding before := by
  rintro ⟨request, recorded, -⟩
  unfold unpinRecorded at recorded
  cases own : s.ctx.pinReqId with
  | none => simp [own] at recorded
  | some earlier => simp [own, setPin] at recorded

namespace SemOperator

/-- Whether the answers that the operator gets for the tuple are accepted. -/
def accepts (op : SemOperator) (ctx : SemContext TupleData) : Bool :=
  let first := ctx.data.responses ctx.data.asked
  let second := ctx.data.responses (ctx.data.asked + 1)
  match op.opClass with
  | .semFilter _ => op.predicatePassed (normalized first.completion.text)
  | .cascadeOperator _ thresholds =>
      let passed :=
        match thresholds with
        | none => !(normalized first.helperText).contains falseToken
        | some thresholds =>
            match resolveWithThresholds thresholds first.helperProbs with
            | some passed => passed
            | none => !(normalized second.completion.text).contains falseToken
      if op.negate then !passed else passed
  | .icpFilter thresholds =>
      match ctx.data.helperScore with
      | none => false
      | some score =>
          if thresholds.high ≤ score then true
          else if score ≤ thresholds.low then false
          else op.oracleFilter.predicatePassed (normalized first.completion.text)
  | .semMap => op.predicatePassed first.completion.text
  | .semClassify => op.predicatePassed (normalized second.completion.text)
  | .indexedSearch => true

variable {before : Finset RequestId} {s : Session} {op : SemOperator}

/-- A call that ends in `handle_output`, with the pin still there if the output is accepted. -/
inductive Judges (op : SemOperator) (before : Finset RequestId) (accepted : Bool) :
    Verdict × Session → Prop where
  | handled (s : Session) (holding : accepted = true → s.Holding before) :
      Judges op before accepted (op.handleOutput accepted s)
  | retry (s : Session) : Judges op before accepted (.retry, s)
  | raise (s : Session) : Judges op before accepted (.raise, s)

theorem Judges.holding_iff {accepted : Bool} {result : Verdict × Session}
    (judges : op.Judges before accepted result) (noUnpin : op.unpin = false)
    (goes : result.1 = .keepGoing) :
    result.2.Holding before ↔ op.predicate = true ∨ accepted = true := by
  cases judges with
  | retry => cases goes
  | raise => cases goes
  | handled s holding =>
    cases accepted with
    | true => simpa [handleOutput, noUnpin] using holding rfl
    | false =>
      have noPredicate : op.predicate = false := by
        cases predicate : op.predicate with
        | false => rfl
        | true => simp [handleOutput, predicate] at goes
      simpa [handleOutput, noPredicate] using s.not_holding_unpinRecorded

/-- A request is pinned and recorded, or the tuple keeps what it has. -/
theorem holding_execute (holding : s.Holding before) (pin : Bool) :
    (if pin then (s.execute pin).2.setPin (some (s.execute pin).1.requestId)
      else (s.execute pin).2).Holding before := by
  cases pin with
  | false =>
    obtain ⟨request, recorded, pinned⟩ := holding
    exact ⟨request, recorded, by simpa using pinned⟩
  | true => exact ⟨s.next.completion.requestId, rfl, by simp⟩

theorem runFilter_eq (op : SemOperator) (s : Session) :
    op.runFilter s = op.handleOutput (op.predicatePassed (normalized s.next.completion.text))
      (if op.pin then (s.execute op.pin).2.setPin (some (s.execute op.pin).1.requestId)
        else (s.execute op.pin).2) := rfl

theorem runCascade_judges {thresholds : Option Thresholds} {negate : Bool}
    (opClass : op.opClass = .cascadeOperator negate thresholds) (holding : s.Holding before) :
    op.Judges before (op.accepts s.ctx) (op.runCascade thresholds s) := by
  have helped : s.answered.Holding before := holding
  cases thresholds with
  | none =>
    have accepted : op.accepts s.ctx =
        if op.negate then !!(normalized s.next.helperText).contains falseToken
        else !(normalized s.next.helperText).contains falseToken := by
      simp only [accepts, opClass]
      rfl
    rw [accepted]
    exact .handled s.answered fun _ => helped
  | some thresholds =>
    cases resolved : resolveWithThresholds thresholds s.next.helperProbs with
    | some passed =>
      have accepted : op.accepts s.ctx = if op.negate then !passed else passed := by
        have same : resolveWithThresholds thresholds
            (s.ctx.data.responses s.ctx.data.asked).helperProbs = some passed := resolved
        simp only [accepts, opClass, same]
      have shape : op.runCascade (some thresholds) s =
          op.handleOutput (if op.negate then !passed else passed) s.answered := by
        simp only [runCascade, resolved]
      rw [accepted, shape]
      exact .handled s.answered fun _ => helped
    | none =>
      have accepted : op.accepts s.ctx = if op.negate then
          !(op.fallbackToMainExecutor s.answered).1
          else (op.fallbackToMainExecutor s.answered).1 := by
        have same : resolveWithThresholds thresholds
            (s.ctx.data.responses s.ctx.data.asked).helperProbs = none := resolved
        simp only [accepts, opClass, same]
        rfl
      have shape : op.runCascade (some thresholds) s =
          op.handleOutput (if op.negate then !(op.fallbackToMainExecutor s.answered).1
            else (op.fallbackToMainExecutor s.answered).1)
            (op.fallbackToMainExecutor s.answered).2 := by
        simp only [runCascade, resolved]
      rw [accepted, shape]
      exact .handled _ fun _ => holding_execute helped op.pin

theorem runICP_judges {thresholds : Thresholds} (opClass : op.opClass = .icpFilter thresholds)
    (holding : s.Holding before) :
    op.Judges before (op.accepts s.ctx) (op.runICP thresholds s) := by
  cases score : s.ctx.data.helperScore with
  | none =>
    simp only [runICP, score]
    exact .raise s
  | some score' =>
    by_cases positive : thresholds.high ≤ score'
    · have accepted : op.accepts s.ctx = true := by
        simp only [accepts, opClass, score, if_pos positive]
      simp only [runICP, score, if_pos positive, accepted]
      exact .handled s fun _ => holding
    · by_cases negative : score' ≤ thresholds.low
      · have accepted : op.accepts s.ctx = false := by
          simp only [accepts, opClass, score, if_neg positive, if_pos negative]
        simp only [runICP, score, if_neg positive, if_pos negative, accepted]
        exact .handled s fun none => nomatch none
      · have accepted : op.accepts s.ctx =
            op.oracleFilter.predicatePassed (normalized s.next.completion.text) := by
          simp only [accepts, opClass, score, if_neg positive, if_neg negative]
          rfl
        simp only [runICP, score, if_neg positive, if_neg negative, accepted]
        cases passed : op.oracleFilter.predicatePassed (normalized s.next.completion.text) with
        | true =>
          have shape : op.oracleFilter.runFilter s = (.keepGoing, (s.execute false).2) := by
            rw [runFilter_eq, passed]
            rfl
          rw [shape]
          exact .handled _ fun _ => holding_execute holding false
        | false =>
          have shape : (op.oracleFilter.runFilter s).1 = .drop := by
            rw [runFilter_eq, passed]
            rfl
          rw [shape]
          exact .handled _ fun none => nomatch none

theorem holding_settlePin {output : CompletionResult} {previous : Option RequestId}
    (noUnpin : op.unpin = false) (pinned : op.pin = true → output.requestId ∈ s.pinned before)
    (holding : op.pin = false → s.Holding before) :
    (op.settlePin previous output s).Holding before := by
  cases pin : op.pin with
  | false => simpa [settlePin, pin, noUnpin] using holding pin
  | true =>
    refine ⟨output.requestId, by simp [settlePin, pin, Session.setPin], ?_⟩
    simp only [settlePin, pin, if_true, Session.pinned_setPin]
    cases previous with
    | none => exact pinned pin
    | some earlier =>
      by_cases same : earlier = output.requestId
      · simpa [Session.unpinPrevious, same] using pinned pin
      · simpa [Session.unpinPrevious, same, Ne.symm same] using pinned pin

theorem callMap_judges (opClass : op.opClass = .semMap) (noUnpin : op.unpin = false)
    (holding : s.Holding before) : op.Judges before (op.accepts s.ctx) (op.callMap s) := by
  have accepted : op.accepts s.ctx = op.predicatePassed s.next.completion.text := by
    simp only [accepts, opClass]
    rfl
  rw [accepted]
  by_cases cut : (s.execute op.pin).1.finishReason = .length ∧
      plannedMaxTokens (op.mapCall s) s.next.estimator < maxTokenLimit
  · simp only [callMap, runMap, if_pos cut]
    exact .retry _
  · simp only [callMap, runMap, if_neg cut]
    refine .handled _ fun _ => holding_settlePin noUnpin ?_ ?_
    · intro pin
      rw [Session.pinned_clearRetry, pin, Session.pinned_execute_true]
      exact Finset.mem_insert_self _ _
    · intro pin
      obtain ⟨request, recorded, pinned⟩ := holding
      rw [pin]
      exact ⟨request, by simpa using recorded, by simpa using pinned⟩

theorem runClassify_judges (opClass : op.opClass = .semClassify) (noUnpin : op.unpin = false)
    (holding : s.Holding before) : op.Judges before (op.accepts s.ctx) (op.runClassify s) := by
  have accepted : op.accepts s.ctx =
      op.predicatePassed (normalized ((s.execute op.pin).2.execute false).1.text) := by
    simp only [accepts, opClass]
    rfl
  rw [accepted, runClassify_eq]
  refine .handled _ fun _ => ?_
  cases pin : op.pin with
  | true => exact ⟨s.next.completion.requestId, rfl, by simp⟩
  | false =>
    obtain ⟨request, recorded, pinned⟩ := holding
    exact ⟨request, by simpa [noUnpin] using recorded, by simpa [noUnpin] using pinned⟩

theorem run_judges (noUnpin : op.unpin = false) (isCall : op.opClass ≠ .indexedSearch)
    (holding : s.Holding before) : op.Judges before (op.accepts s.ctx) (op.run s) := by
  unfold run
  cases opClass : op.opClass with
  | semFilter negate =>
    have accepted : op.accepts s.ctx =
        op.predicatePassed (normalized s.next.completion.text) := by
      simp only [accepts, opClass]
      rfl
    dsimp only
    rw [accepted, runFilter_eq]
    exact .handled _ fun _ => holding_execute holding op.pin
  | cascadeOperator negate thresholds => exact runCascade_judges opClass holding
  | icpFilter thresholds => exact runICP_judges opClass holding
  | semMap => exact callMap_judges opClass noUnpin holding
  | semClassify => exact runClassify_judges opClass noUnpin holding
  | indexedSearch => exact absurd opClass isCall

/-- An operator without the `unpin` flag lets a tuple go on with its pin exactly when it is a
predicate or accepts the answer. -/
theorem continues_pinned_iff (op : SemOperator) (noUnpin : op.unpin = false)
    (ctx : SemContext TupleData) (before : Finset RequestId) (request : RequestId)
    (recorded : ctx.pinReqId = some request) (pinned : request ∈ before)
    (goes : (op.call ctx).1 = .keepGoing) :
    (op.call ctx).2.Holding before ↔ op.predicate = true ∨ op.accepts ctx = true := by
  have holding : Session.Holding before ⟨ctx, []⟩ := ⟨request, recorded, pinned⟩
  unfold call at goes ⊢
  by_cases search : op.opClass = .indexedSearch
  · have accepted : op.accepts ctx = true := by
      simp only [accepts, search]
    rw [run_search search, accepted]
    exact ⟨fun _ => .inr rfl, fun _ => holding⟩
  · exact (run_judges noUnpin search holding).holding_iff noUnpin goes

def plainMap (position : Int) : SemOperator where
  opClass := .semMap
  position := position
  predicate := false
  estimateTokens := fun _ _ => 1

/-- A tuple with the pin of the request `r1`, to which the model answers `text`. -/
def pinnedTuple (text : Text) : SemContext TupleData where
  data := { responses := fun _ => ⟨⟨text, "r2", .other⟩, [], none, 1, .empty⟩ }
  pinReqId := some "r1"

theorem continues_pinned_yes :
    ((plainMap 0).call (pinnedTuple ['y', 'e', 's'])).2.Holding {"r1"} ↔
      (plainMap 0).predicate = true ∨ (plainMap 0).accepts (pinnedTuple ['y', 'e', 's']) = true :=
  continues_pinned_iff (plainMap 0) rfl (pinnedTuple ['y', 'e', 's']) {"r1"} "r1" rfl
    (by decide) (by decide)

/-- A map lets a tuple go on and has given its pin back, because its text contains `False`. -/
theorem continues_unpinned_false :
    (plainMap 0).unpin = false ∧ (pinnedTuple ['F', 'a', 'l', 's', 'e']).pinReqId = some "r1" ∧
      ((plainMap 0).call (pinnedTuple ['F', 'a', 'l', 's', 'e'])).1 = .keepGoing ∧
      ((plainMap 0).call (pinnedTuple ['F', 'a', 'l', 's', 'e'])).2.ctx.pinReqId = none ∧
      ((plainMap 0).call (pinnedTuple ['F', 'a', 'l', 's', 'e'])).2.events = [.unpin "r1"] := by
  decide

end SemOperator

end Kalypso.Query
