import Mathlib.Data.Finset.Basic

/-!
# Requests for several samples

`ParentRequest` of `parallel_sampling.py`, with the submission of its children by
`AsyncLLM.add_request` and the part of `process_outputs` that hands out their results.  A child is
known by its index.  Submitting is suspended after each child, so that results of the children
submitted so far may come in between.  An output carries the entries of the aggregator at the time
it is made.
-/

set_option autoImplicit false

namespace Kalypso.Engine

structure CompletionOutput (C : Type) where
  index : Nat
  content : C
  finished : Bool

/-- `none` is the placeholder of a child without a result. -/
structure RequestOutput (C : Type) where
  outputs : List (Option (CompletionOutput C))
  finished : Bool

structure ParentRequest (C : Type) where
  finalOnly : Bool
  childRequests : Finset Nat
  outputAggregator : List (Option (CompletionOutput C))

variable {C : Type}

def ParentRequest.getOutputs (parent : ParentRequest C) (child : Nat)
    (completion : CompletionOutput C) : RequestOutput C × ParentRequest C :=
  let children :=
    if completion.finished then parent.childRequests.erase child else parent.childRequests
  if parent.finalOnly then
    let aggregator := parent.outputAggregator.set completion.index (some completion)
    (⟨if children = ∅ then aggregator else [], children = ∅⟩,
      { parent with childRequests := children, outputAggregator := aggregator })
  else
    -- A child that had finished before has been returned to the client already.
    let returned := completion.finished ∧ child ∉ parent.childRequests
    (⟨if returned then [] else [some completion], children = ∅⟩,
      { parent with childRequests := children })

structure Sampling (C : Type) where
  n : Nat
  submitted : Nat
  parent : ParentRequest C
  requestStates : Finset Nat
  outputs : List (RequestOutput C)

inductive SamplingEvent (C : Type) where
  | submit
  | output (child : Nat) (content : C) (finished : Bool)

namespace Sampling

def init (n : Nat) (finalOnly : Bool) : Sampling C :=
  ⟨n, 0, ⟨finalOnly, ∅, if finalOnly then List.replicate n none else []⟩, ∅, []⟩

def step (s : Sampling C) : SamplingEvent C → Sampling C
  | .submit =>
      if s.submitted < s.n then
        { s with
          submitted := s.submitted + 1
          parent.childRequests := insert s.submitted s.parent.childRequests
          requestStates := insert s.submitted s.requestStates }
      else s
  | .output child content finished =>
      -- `FINAL_ONLY` asks for the last output of a child only.
      if child ∉ s.requestStates ∨ (finished = false ∧ s.parent.finalOnly) then s
      else
        let (output, parent) := s.parent.getOutputs child ⟨child, content, finished⟩
        { s with
          parent := parent
          requestStates := if finished then s.requestStates.erase child else s.requestStates
          outputs := if output.outputs = [] then s.outputs else s.outputs ++ [output] }

/-- The last child to finish finds all children submitted. -/
def CalmAt (s : Sampling C) : SamplingEvent C → Prop
  | .output child _ true => s.requestStates.erase child = ∅ → s.submitted = s.n
  | _ => True

def Calm : Sampling C → List (SamplingEvent C) → Prop
  | _, [] => True
  | s, event :: events => s.CalmAt event ∧ Calm (s.step event) events

def AllFinished (s : Sampling C) : Prop := s.submitted = s.n ∧ s.requestStates = ∅

/-- One output is finished, the last one.  With `FINAL_ONLY` it is the only one and has the
result of every child. -/
def Ended (s : Sampling C) : Prop :=
  ∃ before output, s.outputs = before ++ [output] ∧ output.finished = true ∧
    (∀ earlier ∈ before, earlier.finished = false) ∧
    (s.parent.finalOnly = true → before = [] ∧
      output.outputs.map (Option.map CompletionOutput.index) = (List.range s.n).map some)

structure Inv (s : Sampling C) : Prop where
  same : s.parent.childRequests = s.requestStates
  bound : s.submitted ≤ s.n
  live : ∀ child ∈ s.requestStates, child < s.submitted
  aggregated : s.parent.finalOnly = true → s.parent.outputAggregator.length = s.n ∧
    ∀ child < s.submitted, child ∉ s.requestStates →
      ∃ completion, s.parent.outputAggregator[child]? = some (some completion) ∧
        completion.index = child
  waits : ¬ s.AllFinished → (∀ output ∈ s.outputs, output.finished = false) ∧
    (s.parent.finalOnly = true → s.outputs = [])
  ends : s.AllFinished → s.Ended

/-- The children that are still to finish after an output of `child`. -/
def rest (s : Sampling C) (child : Nat) (finished : Bool) : Finset Nat :=
  if finished then s.requestStates.erase child else s.requestStates

variable {s : Sampling C}

section Output

variable {child : Nat} {content : C} {finished : Bool}
  (same : s.parent.childRequests = s.requestStates) (live : child ∈ s.requestStates)

include same live

theorem step_streaming (streams : s.parent.finalOnly = false) :
    s.step (.output child content finished) =
      { s with
        parent := { s.parent with childRequests := s.rest child finished }
        requestStates := s.rest child finished
        outputs := s.outputs ++
          [⟨[some ⟨child, content, finished⟩], s.rest child finished = ∅⟩] } := by
  cases finished <;> simp [step, ParentRequest.getOutputs, rest, same, live, streams]

theorem step_final (isFinal : s.parent.finalOnly = true)
    (nonempty : s.parent.outputAggregator ≠ []) :
    s.step (.output child content true) =
      { s with
        parent := ⟨true, s.rest child true,
          s.parent.outputAggregator.set child (some ⟨child, content, true⟩)⟩
        requestStates := s.rest child true
        outputs := if s.rest child true = ∅ then s.outputs ++ [⟨s.parent.outputAggregator.set child
          (some ⟨child, content, true⟩), true⟩] else s.outputs } := by
  by_cases last : s.requestStates.erase child = ∅
  · simp [step, ParentRequest.getOutputs, rest, same, live, isFinal, last, nonempty]
  · simp [step, ParentRequest.getOutputs, rest, same, live, isFinal, last]

end Output

theorem rest_subset (s : Sampling C) (child : Nat) (finished : Bool) :
    ∀ other ∈ s.rest child finished, other ∈ s.requestStates := by
  intro other member
  cases finished with
  | true => exact Finset.mem_of_mem_erase member
  | false => exact member

theorem Inv.submit (inv : s.Inv) : (s.step .submit).Inv := by
  rw [step]
  split
  · next more =>
    refine ⟨by simp [inv.same], more, ?_, ?_, fun _ => inv.waits fun all => ?_, ?_⟩
    · intro child member
      cases Finset.mem_insert.mp member with
      | inl new => exact Nat.lt_succ_of_le (Nat.le_of_eq new)
      | inr old => exact Nat.lt_succ_of_lt (inv.live child old)
    · intro isFinal
      refine ⟨(inv.aggregated isFinal).1, ?_⟩
      intro child below gone
      obtain ⟨other, notLive⟩ := not_or.mp (mt Finset.mem_insert.mpr gone)
      exact (inv.aggregated isFinal).2 child (Nat.lt_of_le_of_ne (Nat.le_of_lt_succ below) other)
        notLive
    · exact absurd all.1 (Nat.ne_of_lt more)
    · rintro ⟨-, none⟩
      exact absurd none (Finset.insert_ne_empty _ _)
  · exact inv

theorem Inv.streaming (inv : s.Inv) {child : Nat} {content : C} {finished : Bool}
    (live : child ∈ s.requestStates) (streams : s.parent.finalOnly = false)
    (calm : s.rest child finished = ∅ → s.submitted = s.n) :
    (s.step (.output child content finished)).Inv := by
  have busy : ¬ s.AllFinished := fun all => by simp [all.2] at live
  rw [step_streaming inv.same live streams]
  refine ⟨rfl, inv.bound, fun other member => inv.live other (rest_subset s child finished other
    member), fun isFinal => ?_, fun waits => ⟨?_, fun isFinal => ?_⟩, fun all => ?_⟩
  · simp [streams] at isFinal
  · intro output member
    rcases List.mem_append.mp member with old | new
    · exact (inv.waits busy).1 output old
    · rw [List.mem_singleton.mp new]
      exact decide_eq_false fun none => waits ⟨calm none, none⟩
  · simp [streams] at isFinal
  · refine ⟨s.outputs, _, rfl, decide_eq_true all.2, (inv.waits busy).1, fun isFinal => ?_⟩
    simp [streams] at isFinal

theorem Inv.final (inv : s.Inv) {child : Nat} {content : C} (live : child ∈ s.requestStates)
    (isFinal : s.parent.finalOnly = true)
    (calm : s.rest child true = ∅ → s.submitted = s.n) :
    (s.step (.output child content true)).Inv := by
  have busy : ¬ s.AllFinished := fun all => by simp [all.2] at live
  obtain ⟨length, finished⟩ := inv.aggregated isFinal
  have bound : child < s.parent.outputAggregator.length :=
    length ▸ Nat.lt_of_lt_of_le (inv.live child live) inv.bound
  have filled : ∀ other < s.submitted, other ∉ s.rest child true → ∃ completion,
      (s.parent.outputAggregator.set child (some ⟨child, content, true⟩))[other]? =
        some (some completion) ∧ completion.index = other := by
    intro other below gone
    by_cases own : other = child
    · subst own
      exact ⟨_, List.getElem?_set_self bound, rfl⟩
    · rw [List.getElem?_set_ne (Ne.symm own)]
      exact finished other below fun member => gone (Finset.mem_erase.mpr ⟨own, member⟩)
  rw [step_final inv.same live isFinal (List.ne_nil_of_length_pos (Nat.zero_lt_of_lt bound))]
  refine ⟨rfl, inv.bound, fun other member => inv.live other (rest_subset s child true other
    member), fun _ => ⟨by simpa using length, filled⟩, fun waits => ?_, fun all => ?_⟩
  · have more : s.rest child true ≠ ∅ := fun none => waits ⟨calm none, none⟩
    rw [if_neg more]
    exact ⟨(inv.waits busy).1, fun _ => (inv.waits busy).2 isFinal⟩
  · obtain ⟨count, none⟩ : s.submitted = s.n ∧ s.rest child true = ∅ := all
    have nothing : s.outputs = [] := (inv.waits busy).2 isFinal
    rw [if_pos none, nothing]
    refine ⟨[], _, rfl, rfl, by simp, fun _ => ⟨rfl, ?_⟩⟩
    refine List.ext_getElem? fun i => ?_
    by_cases below : i < s.n
    · obtain ⟨completion, found, index⟩ := filled i (count ▸ below) (by simp [none])
      rw [List.getElem?_map, found, List.getElem?_map, List.getElem?_range below]
      exact congrArg (some ∘ some) index
    · simp [length, below]

theorem Inv.step (inv : s.Inv) {event : SamplingEvent C} (calm : s.CalmAt event) :
    (s.step event).Inv := by
  cases event with
  | submit => exact inv.submit
  | output child content finished =>
    by_cases ignored : child ∉ s.requestStates ∨ (finished = false ∧ s.parent.finalOnly)
    · rw [Sampling.step, if_pos ignored]
      exact inv
    · obtain ⟨live, wanted⟩ := not_or.mp ignored
      have member := not_not.mp live
      cases finished with
      | true =>
        cases kind : s.parent.finalOnly with
        | true => exact inv.final member kind calm
        | false => exact inv.streaming member kind calm
      | false =>
        refine inv.streaming member (by simpa using wanted) fun none => ?_
        exact absurd member (by simp [show s.requestStates = ∅ from none])

theorem inv_init {n : Nat} (several : 2 ≤ n) (finalOnly : Bool) :
    (init n finalOnly : Sampling C).Inv where
  same := rfl
  bound := Nat.zero_le _
  live := by simp [init]
  aggregated isFinal := ⟨by simp_all [init], fun child below => absurd below (Nat.not_lt_zero _)⟩
  waits := by simp [init]
  ends all := absurd all.1 (by simp [init]; omega)

theorem inv_run (events : List (SamplingEvent C)) : ∀ {s : Sampling C}, s.Inv → s.Calm events →
    (events.foldl Sampling.step s).Inv := by
  induction events with
  | nil => exact fun inv _ => inv
  | cons event events ih => exact fun inv calm => ih (inv.step calm.1) calm.2

/-- While a child is missing no output is finished, and with `FINAL_ONLY` there is none.  Once all
children have been submitted and have finished, the last output, and no other one, is finished;
with `FINAL_ONLY` it is the only one and has the results of the children in order. -/
theorem one_finished_output (n : Nat) (several : 2 ≤ n) (finalOnly : Bool)
    (events : List (SamplingEvent C)) (calm : (init n finalOnly).Calm events) :
    ∃ s, s = events.foldl Sampling.step (init n finalOnly) ∧
      (¬ s.AllFinished → (∀ output ∈ s.outputs, output.finished = false) ∧
        (s.parent.finalOnly = true → s.outputs = [])) ∧
      (s.AllFinished → s.Ended) :=
  have inv := inv_run events (inv_init several finalOnly) calm
  ⟨_, rfl, inv.waits, inv.ends⟩

theorem one_finished_output_two :
    ∃ s, s = [.submit, .submit, .output 1 () true, .output 0 () true].foldl Sampling.step
      (init 2 true) ∧ s.AllFinished ∧ s.Ended := by
  obtain ⟨s, run, -, ends⟩ := one_finished_output 2 (by decide) true
    [.submit, .submit, .output 1 () true, .output 0 () true]
    ⟨trivial, trivial, fun none => absurd none (by decide), fun _ => rfl, trivial⟩
  have all : s.AllFinished := by
    rw [run]
    exact ⟨rfl, by decide⟩
  exact ⟨s, run, all, ends all⟩

/-- The first of two children finishes before the second is submitted: the request is finished
with a placeholder, and finished a second time when the second child has finished. -/
theorem finished_twice :
    ([.submit, .output 0 () true, .submit, .output 1 () true].foldl Sampling.step
        (init 2 true)).outputs.map (fun output =>
          (output.finished, output.outputs.map Option.isSome)) =
      [(true, [true, false]), (true, [true, true])] := by
  decide

end Sampling

end Kalypso.Engine
