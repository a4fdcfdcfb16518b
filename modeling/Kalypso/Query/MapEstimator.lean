import Kalypso.Lib.Binary64
import Kalypso.Lib.Dict
import Kalypso.Lib.Trace
import Mathlib.Data.List.Induction

/-!
# The estimates of output lengths

`SemMap` plans the output length of a call from the ratios of output to input lengths that
earlier calls have left in `MapRatioEstimator`.  Ratios are floats: each operation on them is
followed by `fl`; a length is below 2^53 and so is a float itself.  There is one estimator in the
process; its entries are kept by the position of an operator in its query, and are cleared when a
query returns.
-/

set_option autoImplicit false

namespace Kalypso.Query

open Kalypso.Lib

/-- The point between two values as numpy computes it. -/
def lerp (a b t : ℚ) : ℚ :=
  let diff := fl (b - a)
  if 1 / 2 ≤ t then fl (b - fl (diff * fl (1 - t))) else fl (a + fl (diff * t))

/-- `np.percentile` with its default, the linear method. -/
def percentile (q : ℚ) (ratios : List ℚ) : ℚ :=
  let sorted := ratios.mergeSort (· ≤ ·)
  let virtual := fl ((ratios.length - 1) * fl (q / 100))
  let idx := virtual.floor.toNat
  let below := sorted.getD idx 0
  let above := sorted.getD (idx + 1) below
  lerp below above (fl (virtual - idx))

structure MapRatioEstimator where
  data : Dict Int (List ℚ)

namespace MapRatioEstimator

def empty : MapRatioEstimator := ⟨.empty⟩

def update (pos inputLen outputLen : Int) (estimator : MapRatioEstimator) : MapRatioEstimator :=
  if inputLen ≤ 0 then estimator
  else ⟨estimator.data.set pos (estimator.data.getD pos [] ++ [fl (outputLen / inputLen)])⟩

def getRatio (pos : Int) (estimator : MapRatioEstimator) : Option ℚ :=
  (estimator.data.get? pos).map fun ratios => fl (percentile 95 ratios * fl (11 / 10))

def reset (_ : MapRatioEstimator) : MapRatioEstimator := empty

end MapRatioEstimator

def maxTokenLimit : Int := 8192

/-- What `_planned_max_tokens` reads of the operator and of the context. -/
structure MapCall where
  position : Int
  retryOpPosition : Int
  retryMaxTokens : Int
  promptTokenLen : Int

/-- `_planned_max_tokens`; a ratio of 0 counts as none, and `int` rounds toward 0. -/
def plannedMaxTokens (call : MapCall) (estimator : MapRatioEstimator) : Int :=
  if call.retryOpPosition = call.position ∧ 0 < call.retryMaxTokens then call.retryMaxTokens
  else
    match estimator.getRatio call.position with
    | none => call.promptTokenLen
    | some ratio =>
        if ratio = 0 then call.promptTokenLen else trunc (fl (ratio * call.promptTokenLen))

/-! ## The planned lengths over a history of calls -/

@[simp] theorem percentile_nil (q : ℚ) : percentile q [] = 0 := by
  simp [percentile, lerp]

structure CompletedMap where
  position : Int
  inputLen : Int
  outputLen : Int
  input_pos : 0 < inputLen
  output_nonneg : 0 ≤ outputLen

def CompletedMap.ratio (call : CompletedMap) : ℚ := fl (call.outputLen / call.inputLen)

def ratiosAt (pos : Int) (history : List CompletedMap) : List ℚ :=
  (history.filter fun call => call.position = pos).map CompletedMap.ratio

theorem ratiosAt_concat (pos : Int) (history : List CompletedMap) (call : CompletedMap) :
    ratiosAt pos (history ++ [call]) =
      if call.position = pos then ratiosAt pos history ++ [call.ratio]
      else ratiosAt pos history := by
  unfold ratiosAt
  rw [List.filter_append, List.map_append]
  by_cases here : call.position = pos
  · simp [here]
  · simp [here]

namespace MapRatioEstimator

def after (history : List CompletedMap) : MapRatioEstimator :=
  history.foldl (fun estimator call =>
    estimator.update call.position call.inputLen call.outputLen) empty

theorem after_concat (history : List CompletedMap) (call : CompletedMap) :
    after (history ++ [call]) =
      (after history).update call.position call.inputLen call.outputLen := by
  unfold after
  rw [List.foldl_append]
  rfl

/-- The ratios kept for a position are those of its own calls, in their order. -/
theorem get?_after (pos : Int) (history : List CompletedMap) :
    (after history).data.get? pos =
      if ratiosAt pos history = [] then none else some (ratiosAt pos history) := by
  induction history using List.reverseRecOn with
  | nil => rfl
  | append_singleton history call ih =>
    rw [after_concat, ratiosAt_concat, update, if_neg (not_le.mpr call.input_pos)]
    by_cases here : call.position = pos
    · have kept : (after history).data.getD pos [] = ratiosAt pos history := by
        rw [Dict.getD, ih]
        split
        · rename_i none
          exact none.symm
        · rfl
      rw [if_pos here, here, Dict.get?_set_self, kept, if_neg (by simp)]
      rfl
    · rw [if_neg here, Dict.get?_set_of_ne _ _ (Ne.symm here)]
      exact ih

end MapRatioEstimator

def MapCall.Retries (call : MapCall) : Prop :=
  call.retryOpPosition = call.position ∧ 0 < call.retryMaxTokens

instance (call : MapCall) : Decidable call.Retries :=
  inferInstanceAs (Decidable (_ ∧ _))

theorem plannedMaxTokens_of_retries {call : MapCall} (retries : call.Retries)
    (estimator : MapRatioEstimator) : plannedMaxTokens call estimator = call.retryMaxTokens :=
  if_pos retries

/-- The ratio that `_planned_max_tokens` goes by, 0 if there is none to go by. -/
def plannedRatio (pos : Int) (history : List CompletedMap) : ℚ :=
  fl (percentile 95 (ratiosAt pos history) * fl (11 / 10))

theorem plannedMaxTokens_after (history : List CompletedMap) {call : MapCall}
    (first : ¬ call.Retries) :
    plannedMaxTokens call (.after history) =
      if plannedRatio call.position history = 0 then call.promptTokenLen
      else trunc (fl (plannedRatio call.position history * call.promptTokenLen)) := by
  refine (if_neg first).trans ?_
  rw [MapRatioEstimator.getRatio, MapRatioEstimator.get?_after]
  by_cases none : ratiosAt call.position history = []
  · rw [if_pos none]
    have zero : plannedRatio call.position history = 0 := by
      rw [plannedRatio, none, percentile_nil, zero_mul, fl_zero]
    rw [if_pos zero]
    rfl
  · rw [if_neg none]
    rfl

/-! ### The prompts that a ratio serves -/

/-- The shortest prompt for which a ratio plans a token: a product just below 1 is rounded to 1. -/
def shortestPrompt (ratio : ℚ) : Int := ⌈(1 - 1 / 2 ^ 54) / ratio⌉

/-- The longest prompt for which a ratio stays within the limit. -/
def longestPrompt (ratio : ℚ) : Int := ⌈(8193 - 1 / 2 ^ 40) / ratio⌉ - 1

theorem one_le_trunc_fl (x : ℚ) : 1 ≤ trunc (fl x) ↔ 1 - 1 / 2 ^ 54 ≤ x := by
  have reached := le_fl_iff (m := 2 ^ 53) (by norm_num) le_rfl (by norm_num) (-1) x
  rw [le_trunc_iff Int.one_pos]
  norm_num at reached ⊢
  exact reached

theorem trunc_fl_le_limit (x : ℚ) : trunc (fl x) ≤ maxTokenLimit ↔ x < 8193 - 1 / 2 ^ 40 := by
  have reached := le_fl_iff (m := 8193 * 2 ^ 39) (by norm_num) (by norm_num) (by norm_num) 13 x
  have beyond : (8193 : Int) ≤ trunc (fl x) ↔ 8193 - 1 / 2 ^ 40 ≤ x := by
    rw [le_trunc_iff (by norm_num)]
    norm_num at reached ⊢
    exact reached
  rw [← not_le, ← beyond, not_le]
  exact Int.lt_add_one_iff.symm

theorem planned_of_ratio {ratio : ℚ} (some : ratio ≠ 0) {length : Int} (prompt : 1 ≤ length) :
    (1 ≤ trunc (fl (ratio * length)) ∧ trunc (fl (ratio * length)) ≤ maxTokenLimit) ↔
      shortestPrompt ratio ≤ length ∧ length ≤ longestPrompt ratio := by
  have positive : (1 : ℚ) ≤ length := by exact_mod_cast prompt
  rw [one_le_trunc_fl, trunc_fl_le_limit, shortestPrompt, longestPrompt, Int.ceil_le,
    Int.le_sub_one_iff, Int.lt_ceil]
  rcases lt_or_gt_of_ne some with negative | above
  · -- a negative ratio plans no tokens, and no prompt is short enough for it
    have product : ratio * length < 0 := mul_neg_of_neg_of_pos negative (by linarith)
    have quotient : (8193 - 1 / 2 ^ 40) / ratio < 0 := div_neg_of_pos_of_neg (by norm_num) negative
    refine iff_of_false ?_ ?_
    · rintro ⟨enough, -⟩
      norm_num at enough
      linarith
    · rintro ⟨-, short⟩
      linarith
  · rw [div_le_iff₀ above, lt_div_iff₀ above, mul_comm ratio]

/-- The planned length is a length that may be asked for, exactly if a retry asks for the limit, or
the call goes by its prompt length and that is within the limit, or the prompt is one of those that
the ratio of the earlier calls serves. -/
theorem plannedMaxTokens_valid_iff (history : List CompletedMap) (call : MapCall)
    (prompt : 1 ≤ call.promptTokenLen)
    (limits : call.retryMaxTokens = 0 ∨ call.retryMaxTokens = maxTokenLimit) :
    (1 ≤ plannedMaxTokens call (.after history) ∧
        plannedMaxTokens call (.after history) ≤ maxTokenLimit) ↔
      call.Retries ∨
        (plannedRatio call.position history = 0 ∧ call.promptTokenLen ≤ maxTokenLimit) ∨
        (plannedRatio call.position history ≠ 0 ∧
          shortestPrompt (plannedRatio call.position history) ≤ call.promptTokenLen ∧
          call.promptTokenLen ≤ longestPrompt (plannedRatio call.position history)) := by
  by_cases retries : call.Retries
  · have limit : call.retryMaxTokens = maxTokenLimit := by
      cases limits with
      | inl zero => exact absurd retries.2 (by omega)
      | inr limit => exact limit
    have planned : plannedMaxTokens call (.after history) = maxTokenLimit := by
      rw [plannedMaxTokens_of_retries retries, limit]
    rw [planned]
    exact iff_of_true ⟨by decide, le_refl _⟩ (Or.inl retries)
  · rw [plannedMaxTokens_after history retries, or_iff_right retries]
    by_cases zero : plannedRatio call.position history = 0
    · rw [if_pos zero]
      simp [zero, prompt]
    · rw [if_neg zero, planned_of_ratio zero prompt]
      simp [zero]

def shortCall : MapCall := ⟨0, -1, 0, 10⟩

theorem plannedMaxTokens_valid_equal_lengths :
    1 ≤ plannedMaxTokens shortCall (.after [⟨0, 10, 10, by decide, by decide⟩]) ∧
      plannedMaxTokens shortCall (.after [⟨0, 10, 10, by decide, by decide⟩]) ≤ maxTokenLimit :=
  (plannedMaxTokens_valid_iff [⟨0, 10, 10, by decide, by decide⟩] shortCall (by decide)
    (Or.inl rfl)).mpr (by decide +kernel)

/-- An answer of one token to a long prompt plans none for a short one, an answer of ten to a prompt
of 1133 none for one of 103, where the exact product is 1; and without any history a
long prompt plans beyond the limit. -/
theorem plannedMaxTokens_out_of_range :
    plannedMaxTokens shortCall (.after [⟨0, 100, 1, by decide, by decide⟩]) = 0 ∧
      plannedMaxTokens ⟨0, -1, 0, 103⟩ (.after [⟨0, 1133, 10, by decide, by decide⟩]) = 0 ∧
      plannedMaxTokens ⟨0, -1, 0, 9000⟩ (.after []) = 9000 := by
  decide +kernel

/-! ## Queries on one server -/

structure QueryLife where
  running : Bool
  tasks : Nat
  deriving DecidableEq

inductive MapOp where
  | begin (query : Nat)
  | startTask (query : Nat)
  /-- a call of `SemMap` that was not cut short: `update` -/
  | complete (query : Nat) (pos inputLen outputLen : Int)
  | endTask (query : Nat)
  /-- the query returns: `reset` -/
  | finish (query : Nat)
  /-- an exception leaves `SemanticPlan.execute` -/
  | fail (query : Nat)

namespace MapOp

def query : MapOp → Nat
  | .begin query => query
  | .startTask query => query
  | .complete query _ _ _ => query
  | .endTask query => query
  | .finish query => query
  | .fail query => query

def apply : MapOp → MapRatioEstimator → MapRatioEstimator
  | .complete _ pos inputLen outputLen, estimator => estimator.update pos inputLen outputLen
  | .finish _, estimator => estimator.reset
  | _, estimator => estimator

/-- What becomes of the query; `none` if it cannot do this. -/
def nextLife : MapOp → Option QueryLife → Option QueryLife
  | .begin _, none => some ⟨true, 0⟩
  | .startTask _, some life => if life.running then some ⟨true, life.tasks + 1⟩ else none
  | .complete _ _ _ _, some life => if 0 < life.tasks then some life else none
  | .endTask _, some life => if 0 < life.tasks then some ⟨life.running, life.tasks - 1⟩ else none
  | .finish _, some life => if life.running ∧ life.tasks = 0 then some ⟨false, 0⟩ else none
  | .fail _, some life => if life.running then some ⟨false, life.tasks⟩ else none
  | _, _ => none

end MapOp

structure MapState where
  estimator : MapRatioEstimator
  queries : Dict Nat QueryLife

namespace MapState

def init : MapState := ⟨.empty, .empty⟩

def step (s : MapState) (op : MapOp) : Option MapState :=
  (op.nextLife (s.queries.get? op.query)).map fun life =>
    ⟨op.apply s.estimator, s.queries.set op.query life⟩

def Step (s : MapState) (op : MapOp) (s' : MapState) : Prop := s.step op = some s'

/-- The query may still plan calls: it is running, or has tasks left. -/
def CanPlan (s : MapState) (query : Nat) : Prop :=
  ∃ life, s.queries.get? query = some life ∧ (life.running = true ∨ 0 < life.tasks)

instance (s : MapState) (query : Nat) : Decidable (s.CanPlan query) :=
  inferInstanceAs (Decidable (∃ _, _ ∧ _))

/-- A query begins only when no other can plan calls and the estimator has no entries. -/
def KeepsApart (s : MapState) : MapOp → Prop
  | .begin _ => s.estimator = .empty ∧ ∀ other, ¬ s.CanPlan other
  | _ => True

def ApartStep (s : MapState) (op : MapOp) (s' : MapState) : Prop := Step s op s' ∧ s.KeepsApart op

def ownOps (query : Nat) (ops : List MapOp) : List MapOp := ops.filter fun op => op.query = query

def ownEstimator (query : Nat) (ops : List MapOp) : MapRatioEstimator :=
  (ownOps query ops).foldl (fun estimator op => op.apply estimator) .empty

theorem ownOps_append (query : Nat) (past : List MapOp) (op : MapOp) :
    ownOps query (past ++ [op]) = ownOps query past ++ if op.query = query then [op] else [] := by
  by_cases own : op.query = query
  · simp [ownOps, own]
  · simp [ownOps, own]

theorem ownEstimator_own {query : Nat} {op : MapOp} (own : op.query = query) (past : List MapOp) :
    ownEstimator query (past ++ [op]) = op.apply (ownEstimator query past) := by
  simp [ownEstimator, ownOps_append, own]

theorem ownEstimator_of_absent {query : Nat} {past : List MapOp}
    (absent : ∀ op ∈ past, op.query ≠ query) : ownEstimator query past = .empty := by
  have none : ownOps query past = [] := by
    apply List.filter_eq_nil_iff.mpr
    intro op member
    simpa using absent op member
  rw [ownEstimator, none]
  rfl

/-! ## One step -/

section

variable {s s' : MapState} {op : MapOp} {query : Nat}

theorem step_eq (happens : Step s op s') :
    ∃ life, op.nextLife (s.queries.get? op.query) = some life ∧
      s' = ⟨op.apply s.estimator, s.queries.set op.query life⟩ := by
  unfold Step step at happens
  obtain ⟨life, next, result⟩ := Option.map_eq_some_iff.mp happens
  exact ⟨life, next, result.symm⟩

theorem queries_of_ne (happens : Step s op s') (other : op.query ≠ query) :
    s'.queries.get? query = s.queries.get? query := by
  obtain ⟨life, _, result⟩ := step_eq happens
  subst result
  exact Dict.get?_set_of_ne _ _ (Ne.symm other)

theorem canPlan_of_ne (happens : Step s op s') (other : op.query ≠ query)
    (after : s'.CanPlan query) : s.CanPlan query := by
  unfold CanPlan at after ⊢
  rwa [queries_of_ne happens other] at after

theorem canPlan_of_acts (happens : Step s op s') (begun : ∀ query, op ≠ .begin query) :
    s.CanPlan op.query := by
  obtain ⟨life, next, _⟩ := step_eq happens
  unfold CanPlan
  cases known : s.queries.get? op.query with
  | none =>
    rw [known] at next
    cases op with
    | begin query => exact absurd rfl (begun query)
    | startTask query => cases next
    | complete query pos inputLen outputLen => cases next
    | endTask query => cases next
    | finish query => cases next
    | fail query => cases next
  | some before =>
    rw [known] at next
    refine ⟨before, rfl, ?_⟩
    cases op with
    | begin query => exact absurd rfl (begun query)
    | startTask query | fail query =>
      simp only [MapOp.nextLife, Option.ite_none_right_eq_some] at next
      exact .inl next.1
    | complete query pos inputLen outputLen | endTask query =>
      simp only [MapOp.nextLife, Option.ite_none_right_eq_some] at next
      exact .inr next.1
    | finish query =>
      simp only [MapOp.nextLife, Option.ite_none_right_eq_some] at next
      exact .inl next.1.1

theorem absent_of_begin (happens : Step s (.begin query) s') : s.queries.get? query = none := by
  obtain ⟨life, next, _⟩ := step_eq happens
  cases known : s.queries.get? query with
  | none => rfl
  | some before =>
    simp only [MapOp.query, known] at next
    cases next

end

/-! ## Runs -/

/-- While queries are kept apart, at most one can plan calls, and the estimator is its own. -/
structure Inv (past : List MapOp) (s : MapState) : Prop where
  alone : ∀ query other, s.CanPlan query → s.CanPlan other → query = other
  own : ∀ query, s.CanPlan query → s.estimator = ownEstimator query past
  begun : ∀ query, s.queries.get? query = none → ∀ op ∈ past, op.query ≠ query

theorem inv_init : Inv [] init where
  alone := by
    rintro query other ⟨life, present, _⟩
    cases present
  own := by
    rintro query ⟨life, present, _⟩
    cases present
  begun := by
    intro query absent op member
    cases member

theorem Inv.step {past : List MapOp} {s s' : MapState} {op : MapOp} (inv : Inv past s)
    (happens : ApartStep s op s') : Inv (past ++ [op]) s' := by
  obtain ⟨happens, apart⟩ := happens
  -- another query than the one that acts could not plan calls
  have others : ∀ query, op.query ≠ query → ¬ s'.CanPlan query := by
    intro query other after
    have before := canPlan_of_ne happens other after
    cases op with
    | begin acting => exact apart.2 query before
    | startTask acting | complete acting _ _ _ | endTask acting | finish acting | fail acting =>
      exact other (inv.alone _ _ (canPlan_of_acts happens nofun) before)
  have acts : ∀ query, s'.CanPlan query → op.query = query := by
    intro query after
    by_contra other
    exact others query other after
  -- the estimator before the step was the acting query's own
  have before : s.estimator = ownEstimator op.query past := by
    by_cases begins : ∃ query, op = .begin query
    · obtain ⟨query, same⟩ := begins
      subst same
      rw [apart.1]
      exact (ownEstimator_of_absent (inv.begun query (absent_of_begin happens))).symm
    · exact inv.own _ (canPlan_of_acts happens fun query same => begins ⟨query, same⟩)
  obtain ⟨life, _, result⟩ := step_eq happens
  refine ⟨?_, ?_, ?_⟩
  · intro query other first second
    exact (acts query first).symm.trans (acts other second)
  · intro query after
    have own := acts query after
    rw [ownEstimator_own own, ← own, ← before, result]
  · intro query absent label member
    have other : op.query ≠ query := by
      intro own
      rw [result, own] at absent
      simp at absent
    rw [queries_of_ne happens other] at absent
    cases List.mem_append.mp member with
    | inl earlier => exact inv.begun query absent label earlier
    | inr last => rwa [List.mem_singleton.mp last]

/-- If queries are kept apart, what is planned for a query depends only on what the query itself
has done. -/
theorem plannedMaxTokens_local {ops ops' : List MapOp} {s s' : MapState}
    (run : Trace ApartStep init ops s) (run' : Trace ApartStep init ops' s') {query : Nat}
    (sameOwn : ownOps query ops = ownOps query ops') (planning : s.CanPlan query)
    (planning' : s'.CanPlan query) (call : MapCall) :
    plannedMaxTokens call s.estimator = plannedMaxTokens call s'.estimator := by
  have inv : Inv ops s := run.history (fun _ _ _ _ happens held => held.step happens) inv_init
  have inv' : Inv ops' s' := run'.history (fun _ _ _ _ happens held => held.step happens) inv_init
  rw [inv.own query planning, inv'.own query planning', ownEstimator, ownEstimator, sameOwn]

/-! ## A query after a failed one -/

/-- A first query completes a call with ten times as many tokens as its prompt, and fails. -/
def failedQuery (query : Nat) : List MapOp :=
  [.begin query, .startTask query, .complete query 0 10 100, .endTask query, .fail query]

/-- A first call of the first operator, with a prompt of ten tokens. -/
def firstCall : MapCall := ⟨0, -1, 0, 10⟩

/-- A call is planned with 110 tokens after a failed query and with 10 without it, although its own
query has only begun. -/
theorem plannedMaxTokens_foreign :
    ∃ s s', Trace Step init (failedQuery 1 ++ [.begin 2]) s ∧ Trace Step init [.begin 2] s' ∧
      ownOps 2 (failedQuery 1 ++ [.begin 2]) = ownOps 2 [.begin 2] ∧
      s.CanPlan 2 ∧ s'.CanPlan 2 ∧
      plannedMaxTokens firstCall s.estimator = 110 ∧
      plannedMaxTokens firstCall s'.estimator = 10 := by
  obtain ⟨s, runs, planning, tokens⟩ : ∃ s, (failedQuery 1 ++ [MapOp.begin 2]).foldlM step init =
      some s ∧ s.CanPlan 2 ∧ plannedMaxTokens firstCall s.estimator = 110 := by
    decide +kernel
  obtain ⟨s', runs', planning', tokens'⟩ : ∃ s', [MapOp.begin 2].foldlM step init = some s' ∧
      s'.CanPlan 2 ∧ plannedMaxTokens firstCall s'.estimator = 10 := by
    decide +kernel
  exact ⟨s, s', Trace.of_foldlM runs, Trace.of_foldlM runs', rfl, planning, planning', tokens,
    tokens'⟩

def finishedQuery (query : Nat) : List MapOp :=
  [.begin query, .startTask query, .complete query 0 10 100, .endTask query, .finish query]

def apartStep (s : MapState) (op : MapOp) : Option MapState :=
  match op with
  | .begin _ =>
      if s.estimator.data.entries.isEmpty &&
          s.queries.values.all fun life => !life.running && life.tasks == 0 then s.step op
      else none
  | _ => s.step op

theorem apartStep_spec {s s' : MapState} {op : MapOp} (happens : s.apartStep op = some s') :
    ApartStep s op s' := by
  unfold apartStep at happens
  split at happens
  · rename_i query
    obtain ⟨apart, happens⟩ := Option.ite_none_right_eq_some.mp happens
    rw [Bool.and_eq_true, List.isEmpty_iff] at apart
    refine ⟨happens, ?_, ?_⟩
    · obtain ⟨⟨⟨entries, distinct⟩⟩, queries⟩ := s
      obtain ⟨rfl, _⟩ := apart
      rfl
    · rintro other ⟨life, present, planning⟩
      have member := List.mem_map_of_mem (f := Prod.snd) ((Dict.get?_eq_some_iff _ _ _).mp present)
      have ended := List.all_eq_true.mp apart.2 life member
      simp only [Bool.and_eq_true, Bool.not_eq_true', beq_iff_eq] at ended
      cases planning with
      | inl running => simp [ended.1] at running
      | inr tasks => omega
  · rename_i notBegin
    refine ⟨happens, ?_⟩
    unfold KeepsApart
    split
    · exact absurd rfl (notBegin _)
    · exact trivial

theorem plannedMaxTokens_local_finished :
    ∃ s s', Trace ApartStep init (finishedQuery 1 ++ [.begin 2]) s ∧
      Trace ApartStep init [.begin 2] s' ∧
      plannedMaxTokens firstCall s.estimator = plannedMaxTokens firstCall s'.estimator := by
  obtain ⟨s, runs, planning⟩ : ∃ s, (finishedQuery 1 ++ [MapOp.begin 2]).foldlM apartStep init =
      some s ∧ s.CanPlan 2 := by
    decide +kernel
  obtain ⟨s', runs', planning'⟩ : ∃ s', [MapOp.begin 2].foldlM apartStep init = some s' ∧
      s'.CanPlan 2 := by
    decide +kernel
  have run := (Trace.of_foldlM runs).mono fun _ _ _ => apartStep_spec
  have run' := (Trace.of_foldlM runs').mono fun _ _ _ => apartStep_spec
  exact ⟨s, s', run, run', plannedMaxTokens_local run run' rfl planning planning' firstCall⟩

end MapState

end Kalypso.Query
