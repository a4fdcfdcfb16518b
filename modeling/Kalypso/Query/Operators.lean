import Kalypso.Lib.Text
import Kalypso.Query.MapEstimator
import Kalypso.Query.Stage
import Mathlib.Data.Finset.Insert
import Mathlib.Data.Finset.Erase

/-!
# The tuple-independent operators and their pins

`SemFilter`, `CascadeOperator`, `ICPFilter`, `SemMap`, `SemClassify` and `IndexedSearch`, with the
verdict they return for a tuple and the requests they pin and unpin for it.

Prompts, documents and outputs are left out.  What the services answer to the tuple, and what the
operators read beside it, is a sequence of responses that comes with the tuple: any sequence.
-/

set_option autoImplicit false

namespace Kalypso.Query

open Kalypso.Lib

/-! ## Tuples and responses -/

inductive FinishReason where
  | length
  | other
deriving DecidableEq, Repr

structure CompletionResult where
  text : Text
  requestId : RequestId
  finishReason : FinishReason

/-- The two values of `_extract_first_token_probs` that are compared with the thresholds. -/
structure HelperProbs where
  topToken : Text
  trueProb : ℚ

structure Response where
  completion : CompletionResult
  helperText : Text
  helperProbs : Option HelperProbs
  promptTokenLen : Nat
  estimator : MapRatioEstimator

/-- The fields of `ExecutionState` that operators read besides `pin_req_id`, the responses to the
tuple, and the number of requests made for it. -/
structure TupleData where
  responses : Nat → Response
  asked : Nat := 0
  retryOpPosition : Int := -1
  retryMaxTokens : Int := 0
  helperScore : Option ℚ := none

inductive PinEvent where
  | pin (request : RequestId)
  | unpin (request : RequestId)
deriving DecidableEq, Repr

/-- A tuple in an operator, with the requests pinned and unpinned for it so far. -/
structure Session where
  ctx : SemContext TupleData
  events : List PinEvent

/-- What `run_task` distinguishes: the tuple goes on, `False`, `RETRY_TASK`, or an exception. -/
inductive Verdict where
  | keepGoing
  | drop
  | retry
  | raise
deriving DecidableEq, Repr

namespace Session

def next (s : Session) : Response := s.ctx.data.responses s.ctx.data.asked

def answered (s : Session) : Session :=
  { s with ctx := { s.ctx with data := { s.ctx.data with asked := s.ctx.data.asked + 1 } } }

def execute (pin : Bool) (s : Session) : CompletionResult × Session :=
  (s.next.completion,
    { s.answered with
      events := s.events ++ if pin then [.pin s.next.completion.requestId] else [] })

def unpin (request : RequestId) (s : Session) : Session :=
  { s with events := s.events ++ [.unpin request] }

def setPin (pinReqId : Option RequestId) (s : Session) : Session :=
  { s with ctx := { s.ctx with pinReqId := pinReqId } }

def setRetry (position maxTokens : Int) (s : Session) : Session :=
  { s with ctx := { s.ctx with data :=
      { s.ctx.data with retryOpPosition := position, retryMaxTokens := maxTokens } } }

def clearRetry (position : Int) (s : Session) : Session :=
  if s.ctx.data.retryOpPosition = position then s.setRetry (-1) 0 else s

def unpinPrevious (previous : Option RequestId) (own : RequestId) (s : Session) : Session :=
  match previous with
  | some request => if request ≠ own then s.unpin request else s
  | none => s

def unpinRecorded (s : Session) : Session :=
  match s.ctx.pinReqId with
  | some request => (s.unpin request).setPin none
  | none => s

end Session

/-! ## Operators -/

structure Thresholds where
  low : ℚ
  high : ℚ
  ordered : low ≤ high

inductive OpClass where
  | semFilter (negate : Bool)
  | cascadeOperator (negate : Bool) (thresholds : Option Thresholds)
  | icpFilter (thresholds : Thresholds)
  | semMap
  | semClassify
  | indexedSearch

structure SemOperator where
  opClass : OpClass
  position : Int
  predicate : Bool
  pin : Bool := false
  unpin : Bool := false
  estimateTokens : MapRatios → SemContext TupleData → Nat

def falseToken : Text := ['f', 'a', 'l', 's', 'e']

def trueToken : Text := ['t', 'r', 'u', 'e']

def normalized (text : Text) : Text := text.strip.lower

namespace SemOperator

def negate (op : SemOperator) : Bool :=
  match op.opClass with
  | .semFilter negate => negate
  | .cascadeOperator negate _ => negate
  | _ => false

def predicatePassed (op : SemOperator) (verdict : Text) : Bool :=
  let passed := !(normalized verdict).contains falseToken
  if op.negate then !passed else passed

def handleOutput (op : SemOperator) (passed : Bool) (s : Session) : Verdict × Session :=
  (if op.predicate && !passed then .drop else .keepGoing,
    if op.unpin || !passed then s.unpinRecorded else s)

def runFilter (op : SemOperator) (s : Session) : Verdict × Session :=
  let (output, s) := s.execute op.pin
  let s := if op.pin then s.setPin (some output.requestId) else s
  op.handleOutput (op.predicatePassed (normalized output.text)) s

/-- `_resolve_with_thresholds`: `none` if the helper's answer does not decide. -/
def resolveWithThresholds (thresholds : Thresholds) (helperProbs : Option HelperProbs) :
    Option Bool :=
  match helperProbs with
  | none => none
  | some probs =>
      if probs.topToken ≠ trueToken ∧ probs.topToken ≠ falseToken then none
      else if thresholds.high ≤ probs.trueProb then some true
      else if probs.trueProb ≤ thresholds.low then some false
      else none

def fallbackToMainExecutor (op : SemOperator) (s : Session) : Bool × Session :=
  let (output, s) := s.execute op.pin
  (!(normalized output.text).contains falseToken,
    if op.pin then s.setPin (some output.requestId) else s)

def runCascade (op : SemOperator) (thresholds : Option Thresholds) (s : Session) :
    Verdict × Session :=
  let (passed, s) :=
    match thresholds with
    | none => (!(normalized s.next.helperText).contains falseToken, s.answered)
    | some thresholds =>
        match resolveWithThresholds thresholds s.next.helperProbs with
        | some passed => (passed, s.answered)
        | none => op.fallbackToMainExecutor s.answered
  op.handleOutput (if op.negate then !passed else passed) s

def oracleFilter (op : SemOperator) : SemOperator where
  opClass := .semFilter false
  position := op.position
  predicate := true
  estimateTokens := op.estimateTokens

def runICP (op : SemOperator) (thresholds : Thresholds) (s : Session) : Verdict × Session :=
  match s.ctx.data.helperScore with
  | none => (.raise, s)
  | some score =>
      if thresholds.high ≤ score then op.handleOutput true s
      else if score ≤ thresholds.low then op.handleOutput false s
      else
        let (verdict, s) := op.oracleFilter.runFilter s
        op.handleOutput (verdict = .keepGoing) s

def requeue (op : SemOperator) (previous : Option RequestId) (output : CompletionResult)
    (s : Session) : Session :=
  let s :=
    if op.pin then
      ((s.unpin output.requestId).unpinPrevious previous output.requestId).setPin none
    else s
  s.setRetry op.position maxTokenLimit

/-- The end of `SemMap._run_single`: the pin of this request takes the place of the previous. -/
def settlePin (op : SemOperator) (previous : Option RequestId) (output : CompletionResult)
    (s : Session) : Session :=
  if op.pin then
    (s.unpinPrevious previous output.requestId).setPin (some output.requestId)
  else if op.unpin then s.unpinRecorded
  else s

def mapCall (op : SemOperator) (s : Session) : MapCall where
  position := op.position
  retryOpPosition := s.ctx.data.retryOpPosition
  retryMaxTokens := s.ctx.data.retryMaxTokens
  promptTokenLen := s.next.promptTokenLen

/-- `SemMap._run_single`: the text, or `none` for `RETRY_TASK`. -/
def runMap (op : SemOperator) (s : Session) : Option Text × Session :=
  let previous := if op.pin then s.ctx.pinReqId else none
  let maxTokens := plannedMaxTokens (op.mapCall s) s.next.estimator
  let (output, s) := s.execute op.pin
  if output.finishReason = .length ∧ maxTokens < maxTokenLimit then
    (none, op.requeue previous output s)
  else
    (some output.text, op.settlePin previous output (s.clearRetry op.position))

def callMap (op : SemOperator) (s : Session) : Verdict × Session :=
  match op.runMap s with
  | (none, s) => (.retry, s)
  | (some text, s) => op.handleOutput (op.predicatePassed text) s

def runClassify (op : SemOperator) (s : Session) : Verdict × Session :=
  let (dataResult, s) := s.execute op.pin
  let (output, s) := s.execute false
  let s :=
    if op.pin then s.setPin (some dataResult.requestId)
    else if op.unpin then s.unpinRecorded
    else s
  op.handleOutput (op.predicatePassed (normalized output.text)) s

def run (op : SemOperator) (s : Session) : Verdict × Session :=
  match op.opClass with
  | .semFilter _ => op.runFilter s
  | .cascadeOperator _ thresholds => op.runCascade thresholds s
  | .icpFilter thresholds => op.runICP thresholds s
  | .semMap => op.callMap s
  | .semClassify => op.runClassify s
  | .indexedSearch => (.keepGoing, s)

def call (op : SemOperator) (ctx : SemContext TupleData) : Verdict × Session := op.run ⟨ctx, []⟩

end SemOperator

/-! ## Requests that stay pinned -/

def PinEvent.apply : PinEvent → Finset RequestId → Finset RequestId
  | .pin request, pinned => insert request pinned
  | .unpin request, pinned => pinned.erase request

/-- The requests that are pinned after `events`, if those of `before` were. -/
def pinnedAfter (before : Finset RequestId) (events : List PinEvent) : Finset RequestId :=
  events.foldl (fun pinned event => event.apply pinned) before

theorem pinnedAfter_append (before : Finset RequestId) (first second : List PinEvent) :
    pinnedAfter before (first ++ second) = pinnedAfter (pinnedAfter before first) second :=
  List.foldl_append

namespace Session

variable {before others : Finset RequestId} {s : Session}

def pinned (before : Finset RequestId) (s : Session) : Finset RequestId :=
  pinnedAfter before s.events

@[simp] theorem pinned_setPin (pinReqId : Option RequestId) :
    (s.setPin pinReqId).pinned before = s.pinned before := rfl

@[simp] theorem pinned_setRetry (position maxTokens : Int) :
    (s.setRetry position maxTokens).pinned before = s.pinned before := rfl

@[simp] theorem pinReqId_setRetry (position maxTokens : Int) :
    (s.setRetry position maxTokens).ctx.pinReqId = s.ctx.pinReqId := rfl

@[simp] theorem pinReqId_answered : s.answered.ctx.pinReqId = s.ctx.pinReqId := rfl

@[simp] theorem pinReqId_execute (pin : Bool) :
    (s.execute pin).2.ctx.pinReqId = s.ctx.pinReqId := rfl

@[simp] theorem pinned_clearRetry (position : Int) :
    (s.clearRetry position).pinned before = s.pinned before := by
  unfold clearRetry
  split
  · rfl
  · rfl

@[simp] theorem pinReqId_clearRetry (position : Int) :
    (s.clearRetry position).ctx.pinReqId = s.ctx.pinReqId := by
  unfold clearRetry
  split
  · rfl
  · rfl

@[simp] theorem pinned_unpin (request : RequestId) :
    (s.unpin request).pinned before = (s.pinned before).erase request := by
  simp [pinned, pinnedAfter, unpin, PinEvent.apply]

@[simp] theorem pinned_execute_false : (s.execute false).2.pinned before = s.pinned before := by
  simp [pinned, pinnedAfter, execute]

@[simp] theorem pinned_execute_true :
    (s.execute true).2.pinned before =
      insert s.next.completion.requestId (s.pinned before) := by
  simp [pinned, pinnedAfter, execute, PinEvent.apply]

/-- The tuple answers for every pinned request that is not one of `others`. -/
def Recorded (before others : Finset RequestId) (s : Session) : Prop :=
  ∀ request ∈ s.pinned before, s.ctx.pinReqId = some request ∨ request ∈ others

structure Released (before others : Finset RequestId) (s : Session) : Prop where
  pinReqId : s.ctx.pinReqId = none
  pinned : ∀ request ∈ s.pinned before, request ∈ others

theorem Released.recorded (released : s.Released before others) : s.Recorded before others :=
  fun request member => .inr (released.pinned request member)

theorem Recorded.released (recorded : s.Recorded before others)
    (unpinned : s.ctx.pinReqId = none) : s.Released before others := by
  refine ⟨unpinned, ?_⟩
  intro request member
  rcases recorded request member with own | other
  · rw [unpinned] at own
    cases own
  · exact other

theorem mem_pinned_unpinPrevious {previous : Option RequestId} {request own : RequestId}
    (member : request ∈ (s.unpinPrevious previous own).pinned before) :
    request ∈ s.pinned before ∧ (previous = some request → request = own) := by
  cases previous with
  | none => exact ⟨member, fun same => nomatch same⟩
  | some earlier =>
    by_cases same : earlier = own
    · simp only [unpinPrevious, same, ne_eq, not_true_eq_false, if_false] at member
      exact ⟨member, fun isEarlier => (Option.some.inj isEarlier).symm.trans same⟩
    · simp only [unpinPrevious, ne_eq, same, not_false_eq_true, if_true, pinned_unpin,
        Finset.mem_erase] at member
      exact ⟨member.2, fun isEarlier => absurd (Option.some.inj isEarlier).symm member.1⟩

theorem Recorded.unpinRecorded (recorded : s.Recorded before others) :
    s.unpinRecorded.Released before others := by
  unfold Session.unpinRecorded
  cases own : s.ctx.pinReqId with
  | none => exact recorded.released own
  | some request =>
    refine ⟨rfl, ?_⟩
    intro other member
    rw [pinned_setPin, pinned_unpin, Finset.mem_erase] at member
    rcases recorded other member.2 with isOwn | isOther
    · rw [own] at isOwn
      exact absurd (Option.some.inj isOwn).symm member.1
    · exact isOther

/-- A request that is made with or without a pin, and recorded if it is pinned. -/
theorem Recorded.execute (recorded : s.Recorded before others) {pin : Bool}
    (free : pin = true → s.ctx.pinReqId = none) :
    (if pin then (s.execute pin).2.setPin (some (s.execute pin).1.requestId)
      else (s.execute pin).2).Recorded before others := by
  cases pin with
  | false =>
    intro request member
    exact recorded request (by simpa using member)
  | true =>
    have released := recorded.released (free rfl)
    intro request member
    rw [if_pos rfl, pinned_setPin, pinned_execute_true] at member
    rcases Finset.mem_insert.mp member with rfl | old
    · exact .inl rfl
    · exact .inr (released.pinned request old)

end Session

def Verdict.Leaves (before others : Finset RequestId) (s : Session) : Verdict → Prop
  | .drop => s.Released before others
  | _ => s.Recorded before others

namespace SemOperator

variable {before others : Finset RequestId} {s : Session} {op : SemOperator}

theorem handleOutput_leaves (passed : Bool) (recorded : s.Recorded before others) :
    (op.handleOutput passed s).1.Leaves before others (op.handleOutput passed s).2 := by
  cases passed with
  | false =>
    have released := recorded.unpinRecorded
    cases predicate : op.predicate with
    | false => simpa [handleOutput, predicate, Verdict.Leaves] using released.recorded
    | true => simpa [handleOutput, predicate, Verdict.Leaves] using released
  | true =>
    cases unpin : op.unpin with
    | false => simpa [handleOutput, unpin, Verdict.Leaves] using recorded
    | true => simpa [handleOutput, unpin, Verdict.Leaves] using recorded.unpinRecorded.recorded

theorem handleOutput_released (unpin : op.unpin = true) (passed : Bool)
    (recorded : s.Recorded before others) :
    (op.handleOutput passed s).2.Released before others := by
  simpa [handleOutput, unpin] using recorded.unpinRecorded

/-- A call ends in `handle_output`, or it is to be repeated or has raised. -/
inductive Concludes (op : SemOperator) (before others : Finset RequestId) :
    Verdict × Session → Prop where
  | handled (passed : Bool) (s : Session) (recorded : s.Recorded before others) :
      Concludes op before others (op.handleOutput passed s)
  | retry (s : Session) (recorded : s.Recorded before others) :
      Concludes op before others (.retry, s)
  | raise (s : Session) (recorded : s.Recorded before others) :
      Concludes op before others (.raise, s)

theorem Concludes.leaves {result : Verdict × Session}
    (concludes : op.Concludes before others result) : result.1.Leaves before others result.2 := by
  cases concludes with
  | handled passed s recorded => exact handleOutput_leaves passed recorded
  | retry s recorded => exact recorded
  | raise s recorded => exact recorded

theorem Concludes.released {result : Verdict × Session}
    (concludes : op.Concludes before others result) (unpin : op.unpin = true)
    (goes : result.1 = .keepGoing) : result.2.Released before others := by
  cases concludes with
  | handled passed s recorded => exact handleOutput_released unpin passed recorded
  | retry => cases goes
  | raise => cases goes

theorem runFilter_concludes (recorded : s.Recorded before others)
    (free : op.pin = true → s.ctx.pinReqId = none) : op.Concludes before others (op.runFilter s) :=
  .handled _ _ (recorded.execute free)

theorem runCascade_concludes (thresholds : Option Thresholds)
    (recorded : s.Recorded before others) (free : op.pin = true → s.ctx.pinReqId = none) :
    op.Concludes before others (op.runCascade thresholds s) := by
  have helped : s.answered.Recorded before others := recorded
  refine .handled _ _ ?_
  cases thresholds with
  | none => exact helped
  | some thresholds =>
    dsimp only
    split
    · exact helped
    · exact helped.execute free

theorem runICP_concludes (thresholds : Thresholds) (recorded : s.Recorded before others) :
    op.Concludes before others (op.runICP thresholds s) := by
  unfold runICP
  split
  · exact .raise s recorded
  · split
    · exact .handled _ _ recorded
    · split
      · exact .handled _ _ recorded
      · have concludes : op.oracleFilter.Concludes before others (op.oracleFilter.runFilter s) :=
          runFilter_concludes recorded (fun pins => nomatch pins)
        have filtered := concludes.leaves
        refine .handled _ _ ?_
        revert filtered
        cases (op.oracleFilter.runFilter s).1 with
        | drop => exact Session.Released.recorded
        | keepGoing => exact id
        | retry => exact id
        | raise => exact id

section

variable {previous : Option RequestId} {output : CompletionResult}
  (pinned : op.pin = true → ∀ request ∈ s.pinned before,
    request = output.requestId ∨ previous = some request ∨ request ∈ others)
  (recorded : op.pin = false → s.Recorded before others)

include pinned recorded

theorem requeue_recorded : (op.requeue previous output s).Recorded before others := by
  cases pin : op.pin with
  | false => simpa [requeue, pin, Session.Recorded] using recorded pin
  | true =>
    intro request member
    simp only [requeue, pin, if_true, Session.pinned_setRetry, Session.pinned_setPin] at member
    obtain ⟨earlier, notPrevious⟩ := Session.mem_pinned_unpinPrevious member
    rw [Session.pinned_unpin, Finset.mem_erase] at earlier
    rcases pinned pin request earlier.2 with isOwn | isPrevious | isOther
    · exact absurd isOwn earlier.1
    · exact absurd (notPrevious isPrevious) earlier.1
    · exact .inr isOther

theorem settlePin_recorded : (op.settlePin previous output s).Recorded before others := by
  cases pin : op.pin with
  | false =>
    cases unpin : op.unpin with
    | false => simpa [settlePin, pin, unpin] using recorded pin
    | true => simpa [settlePin, pin, unpin] using (recorded pin).unpinRecorded.recorded
  | true =>
    intro request member
    simp only [settlePin, pin, if_true, Session.pinned_setPin] at member ⊢
    obtain ⟨earlier, notPrevious⟩ := Session.mem_pinned_unpinPrevious member
    rcases pinned pin request earlier with isOwn | isPrevious | isOther
    · exact .inl (congrArg some isOwn.symm)
    · exact .inl (congrArg some (notPrevious isPrevious).symm)
    · exact .inr isOther

end

/-- Whatever has been recorded before, a map records at most the pin of its own request. -/
theorem runMap_recorded (recorded : s.Recorded before others) :
    (op.runMap s).2.Recorded before others := by
  have own : op.pin = true → ∀ request ∈ (s.execute op.pin).2.pinned before,
      request = (s.execute op.pin).1.requestId ∨
        (if op.pin then s.ctx.pinReqId else none) = some request ∨ request ∈ others := by
    intro pin request member
    rw [pin, Session.pinned_execute_true] at member
    rw [if_pos pin]
    rcases Finset.mem_insert.mp member with rfl | old
    · exact .inl rfl
    · exact .inr (recorded request old)
  have unpinned : op.pin = false → (s.execute op.pin).2.Recorded before others := by
    intro pin request member
    rw [pin, Session.pinned_execute_false] at member
    exact recorded request member
  simp only [runMap]
  split
  · exact requeue_recorded own unpinned
  · refine settlePin_recorded ?_ ?_
    · simpa using own
    · simpa [Session.Recorded] using unpinned

theorem callMap_concludes (recorded : s.Recorded before others) :
    op.Concludes before others (op.callMap s) := by
  have ran : (op.runMap s).2.Recorded before others := runMap_recorded recorded
  unfold callMap
  split
  · rename_i s' result
    rw [result] at ran
    exact .retry s' ran
  · rename_i text s' result
    rw [result] at ran
    exact .handled _ _ ran

theorem runClassify_eq (op : SemOperator) (s : Session) :
    op.runClassify s = op.handleOutput
      (op.predicatePassed (normalized ((s.execute op.pin).2.execute false).1.text))
      (if op.pin then
        ((s.execute op.pin).2.execute false).2.setPin (some (s.execute op.pin).1.requestId)
      else if op.unpin then ((s.execute op.pin).2.execute false).2.unpinRecorded
      else ((s.execute op.pin).2.execute false).2) := rfl

theorem runClassify_concludes (recorded : s.Recorded before others)
    (free : op.pin = true → s.ctx.pinReqId = none) :
    op.Concludes before others (op.runClassify s) := by
  rw [runClassify_eq]
  refine .handled _ _ ?_
  cases pin : op.pin with
  | true =>
    have executed := recorded.execute free
    rw [pin, if_pos rfl] at executed
    rw [if_pos rfl]
    intro request member
    exact executed request (by simpa using member)
  | false =>
    have unpinned : ((s.execute false).2.execute false).2.Recorded before others := by
      intro request member
      exact recorded request (by simpa using member)
    cases unpin : op.unpin with
    | false => simpa using unpinned
    | true => simpa using unpinned.unpinRecorded.recorded

/-- An operator that pins finds no pin on the tuple, or is a map, which replaces it. -/
def Free (op : SemOperator) (s : Session) : Prop :=
  op.pin = true → op.opClass = .semMap ∨ s.ctx.pinReqId = none

theorem run_concludes (recorded : s.Recorded before others) (free : op.Free s)
    (isCall : op.opClass ≠ .indexedSearch) : op.Concludes before others (op.run s) := by
  have unpinned : op.opClass ≠ .semMap → op.pin = true → s.ctx.pinReqId = none :=
    fun notMap pin => (free pin).resolve_left notMap
  unfold run
  cases opClass : op.opClass with
  | semFilter negate => exact runFilter_concludes recorded (unpinned (by simp [opClass]))
  | cascadeOperator negate thresholds =>
    exact runCascade_concludes thresholds recorded (unpinned (by simp [opClass]))
  | icpFilter thresholds => exact runICP_concludes thresholds recorded
  | semMap => exact callMap_concludes recorded
  | semClassify => exact runClassify_concludes recorded (unpinned (by simp [opClass]))
  | indexedSearch => exact absurd opClass isCall

theorem run_search (search : op.opClass = .indexedSearch) : op.run s = (.keepGoing, s) := by
  unfold run
  rw [search]

theorem run_leaves (recorded : s.Recorded before others) (free : op.Free s) :
    (op.run s).1.Leaves before others (op.run s).2 := by
  by_cases search : op.opClass = .indexedSearch
  · rw [run_search search]
    exact recorded
  · exact (run_concludes recorded free search).leaves

theorem run_released (recorded : s.Recorded before others) (free : op.Free s)
    (unpin : op.unpin = true) (isCall : op.opClass ≠ .indexedSearch)
    (goes : (op.run s).1 = .keepGoing) : (op.run s).2.Released before others :=
  (run_concludes recorded free isCall).released unpin goes

/-! ## Operators that take no pin -/

def TakesPin (op : SemOperator) : Prop :=
  op.pin = true ∧ op.opClass ≠ .indexedSearch ∧ ∀ thresholds, op.opClass ≠ .icpFilter thresholds

theorem not_takesPin (noPin : op.pin = false) : ¬ op.TakesPin := by
  rintro ⟨pin, -⟩
  rw [noPin] at pin
  cases pin

theorem unpinRecorded_pinReqId (s : Session) : s.unpinRecorded.ctx.pinReqId = none := by
  unfold Session.unpinRecorded
  cases own : s.ctx.pinReqId with
  | none => exact own
  | some request => rfl

theorem handleOutput_pinReqId (passed : Bool) (unpinned : s.ctx.pinReqId = none) :
    (op.handleOutput passed s).2.ctx.pinReqId = none := by
  have left : (op.handleOutput passed s).2 =
      if op.unpin || !passed then s.unpinRecorded else s := rfl
  rw [left]
  split
  · exact unpinRecorded_pinReqId s
  · exact unpinned

theorem runFilter_pinReqId (noPin : op.pin = false) (unpinned : s.ctx.pinReqId = none) :
    (op.runFilter s).2.ctx.pinReqId = none := by
  refine handleOutput_pinReqId _ ?_
  simpa [noPin] using unpinned

theorem runCascade_pinReqId (thresholds : Option Thresholds) (noPin : op.pin = false)
    (unpinned : s.ctx.pinReqId = none) : (op.runCascade thresholds s).2.ctx.pinReqId = none := by
  have helped : s.answered.ctx.pinReqId = none := unpinned
  refine handleOutput_pinReqId _ ?_
  cases thresholds with
  | none => exact helped
  | some thresholds =>
    dsimp only
    split
    · exact helped
    · simpa [fallbackToMainExecutor, noPin] using helped

theorem runICP_pinReqId (thresholds : Thresholds) (unpinned : s.ctx.pinReqId = none) :
    (op.runICP thresholds s).2.ctx.pinReqId = none := by
  unfold runICP
  split
  · exact unpinned
  · split
    · exact handleOutput_pinReqId _ unpinned
    · split
      · exact handleOutput_pinReqId _ unpinned
      · exact handleOutput_pinReqId _ (runFilter_pinReqId rfl unpinned)

section

variable (noPin : op.pin = false) (unpinned : s.ctx.pinReqId = none)

include noPin unpinned

theorem runMap_pinReqId : (op.runMap s).2.ctx.pinReqId = none := by
  simp only [runMap]
  split
  · simpa [requeue, noPin] using unpinned
  · cases unpin : op.unpin with
    | false => simpa [settlePin, noPin, unpin] using unpinned
    | true => simpa [settlePin, noPin, unpin] using unpinRecorded_pinReqId _

theorem callMap_pinReqId : (op.callMap s).2.ctx.pinReqId = none := by
  have ran := runMap_pinReqId noPin unpinned
  unfold callMap
  split
  · rename_i result
    rwa [result] at ran
  · rename_i result
    rw [result] at ran
    exact handleOutput_pinReqId _ ran

theorem runClassify_pinReqId : (op.runClassify s).2.ctx.pinReqId = none := by
  rw [runClassify_eq]
  refine handleOutput_pinReqId _ ?_
  cases unpin : op.unpin with
  | false => simpa [noPin] using unpinned
  | true => simpa [noPin] using unpinRecorded_pinReqId _

end

theorem run_pinReqId (noPin : ¬ op.TakesPin) (unpinned : s.ctx.pinReqId = none) :
    (op.run s).2.ctx.pinReqId = none := by
  have noFlag : op.opClass ≠ .indexedSearch → (∀ thresholds, op.opClass ≠ .icpFilter thresholds) →
      op.pin = false := by
    intro isCall notICP
    rw [← Bool.not_eq_true]
    exact fun pin => noPin ⟨pin, isCall, notICP⟩
  unfold run
  cases opClass : op.opClass with
  | semFilter negate =>
    exact runFilter_pinReqId (noFlag (by simp [opClass]) (by simp [opClass])) unpinned
  | cascadeOperator negate thresholds =>
    exact runCascade_pinReqId _ (noFlag (by simp [opClass]) (by simp [opClass])) unpinned
  | icpFilter thresholds => exact runICP_pinReqId thresholds unpinned
  | semMap => exact callMap_pinReqId (noFlag (by simp [opClass]) (by simp [opClass])) unpinned
  | semClassify =>
    exact runClassify_pinReqId (noFlag (by simp [opClass]) (by simp [opClass])) unpinned
  | indexedSearch => exact unpinned

/-! ## Retries -/

/-- The tuple is to be run again by `op`, with the largest number of tokens. -/
def Retrying (op : SemOperator) (data : TupleData) : Prop :=
  data.retryOpPosition = op.position ∧ data.retryMaxTokens = maxTokenLimit

instance (op : SemOperator) (data : TupleData) : Decidable (op.Retrying data) :=
  inferInstanceAs (Decidable (_ ∧ _))

theorem requeue_retrying (previous : Option RequestId) (output : CompletionResult) (s : Session) :
    op.Retrying (op.requeue previous output s).ctx.data :=
  ⟨rfl, rfl⟩

theorem runMap_retrying (retry : (op.runMap s).1 = none) :
    op.Retrying (op.runMap s).2.ctx.data := by
  by_cases cut : (s.execute op.pin).1.finishReason = .length ∧
      plannedMaxTokens (op.mapCall s) s.next.estimator < maxTokenLimit
  · simp only [runMap, if_pos cut]
    exact requeue_retrying _ _ _
  · simp only [runMap, if_neg cut] at retry
    cases retry

/-- A retry is made with the largest number of tokens, so that it is not cut short. -/
theorem runMap_of_retrying (retrying : op.Retrying s.ctx.data) : (op.runMap s).1 ≠ none := by
  have planned : plannedMaxTokens (op.mapCall s) s.next.estimator = maxTokenLimit := by
    have again : (op.mapCall s).retryOpPosition = (op.mapCall s).position ∧
        0 < (op.mapCall s).retryMaxTokens := by
      have limit : (op.mapCall s).retryMaxTokens = maxTokenLimit := retrying.2
      refine ⟨retrying.1, ?_⟩
      rw [limit]
      decide
    rw [plannedMaxTokens, if_pos again]
    exact retrying.2
  have whole : ¬ ((s.execute op.pin).1.finishReason = .length ∧
      plannedMaxTokens (op.mapCall s) s.next.estimator < maxTokenLimit) := by
    rw [planned]
    exact fun cut => lt_irrefl _ cut.2
  simp only [runMap, if_neg whole]
  exact fun none => nomatch none

theorem handleOutput_ne_retry (passed : Bool) (s : Session) :
    (op.handleOutput passed s).1 ≠ .retry := by
  unfold handleOutput
  split
  · exact fun same => nomatch same
  · exact fun same => nomatch same

theorem callMap_retry_iff : (op.callMap s).1 = .retry ↔ (op.runMap s).1 = none := by
  unfold callMap
  split
  · rename_i result
    simp [result]
  · rename_i text s' result
    simpa [result] using handleOutput_ne_retry _ _

theorem callMap_of_retry (retry : (op.run s).1 = .retry) :
    op.opClass = .semMap ∧ op.run s = op.callMap s := by
  unfold run at *
  cases opClass : op.opClass with
  | semMap => exact ⟨rfl, rfl⟩
  | semFilter negate | cascadeOperator negate thresholds | semClassify =>
    rw [opClass] at retry
    exact absurd retry (handleOutput_ne_retry _ _)
  | icpFilter thresholds =>
    rw [opClass] at retry
    exfalso
    revert retry
    dsimp only [runICP]
    split
    · exact fun same => nomatch same
    · split
      · exact handleOutput_ne_retry _ _
      · split
        · exact handleOutput_ne_retry _ _
        · exact handleOutput_ne_retry _ _
  | indexedSearch =>
    rw [opClass] at retry
    cases retry

theorem callMap_snd_of_retry (retry : (op.runMap s).1 = none) :
    (op.callMap s).2 = (op.runMap s).2 := by
  unfold callMap
  split
  · rename_i result
    rw [result]
  · rename_i result
    rw [result] at retry
    cases retry

theorem run_ne_retry_of_retry (retry : (op.run s).1 = .retry) {s' : Session}
    (same : s'.ctx = (op.run s).2.ctx) : (op.run s').1 ≠ .retry := by
  intro again
  obtain ⟨-, isMap⟩ := callMap_of_retry retry
  obtain ⟨-, isMap'⟩ := callMap_of_retry again
  rw [isMap, callMap_retry_iff] at retry
  rw [isMap', callMap_retry_iff] at again
  refine runMap_of_retrying ?_ again
  rw [same, isMap, callMap_snd_of_retry retry]
  exact runMap_retrying retry

/-! ## Operators of a stage -/

def result (op : SemOperator) (ctx : SemContext TupleData) : OpResult TupleData :=
  match op.call ctx with
  | (.keepGoing, s) => .keepGoing s.ctx
  | (.drop, _) => .drop
  | (.retry, s) => .retry s.ctx
  | (.raise, _) => .raise

theorem result_retry {ctx later : SemContext TupleData} (retry : op.result ctx = .retry later) :
    (op.call ctx).1 = .retry ∧ later = (op.call ctx).2.ctx := by
  unfold result at retry
  cases called : op.call ctx with
  | mk verdict s =>
    rw [called] at retry
    cases verdict with
    | retry =>
      cases retry
      exact ⟨rfl, rfl⟩
    | keepGoing => cases retry
    | drop => cases retry
    | raise => cases retry

def toTupleOp (op : SemOperator) : TupleOp TupleData where
  call := op.result
  estimateTokens := op.estimateTokens
  retries_finite := by
    refine ⟨fun ctx => ⟨ctx, ?_⟩⟩
    intro later first
    refine ⟨later, ?_⟩
    intro last second
    obtain ⟨retry, isLater⟩ := result_retry first
    obtain ⟨again, -⟩ := result_retry second
    exact absurd again (run_ne_retry_of_retry retry isLater)

end SemOperator

end Kalypso.Query
