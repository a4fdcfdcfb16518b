import Mathlib.Data.List.Induction
import Kalypso.Lib.Raise
import Kalypso.Query.Stage

/-!
# Plan building

`SemanticPlan.build`: tuple-independent operators are fused into stages, a join becomes the
`fanout_op` of the last stage of the open segment, and a blocking operator closes the
segment.  Closing a segment estimates the admission budgets of its stages and registers them
with the memory manager.

The plan keeps every operator unless two joins meet in an open segment: the second is
assigned to the `fanout_op` that already holds the first.
-/

set_option autoImplicit false

namespace Kalypso.Query

open Kalypso.Lib

variable {α : Type}

/-- One item of a plan: a pipeline segment, or an operator that runs on its own. -/
inductive PlanItem (α : Type) where
  | segment (stages : List (Stage α))
  | join (op : JoinOp α)
  | blocking (op : BlockingOp α)

def Stage.flatten (stage : Stage α) : List (BaseOp α) :=
  stage.operators.map BaseOp.tuple ++ stage.fanoutOp.toList.map BaseOp.join

def PlanItem.flatten : PlanItem α → List (BaseOp α)
  | .segment stages => stages.flatMap Stage.flatten
  | .join op => [.join op]
  | .blocking op => [.blocking op]

/-- A raised exception leaves the registrations made so far in the manager. -/
inductive BuildError where
  | zeroDivision (kv : KVMemoryManager)

/-- What `build` reads besides the operators: the contexts, the present map ratios, and
`random.sample`. -/
structure BuildEnv (α : Type) where
  ctxs : List (SemContext α)
  ratios : MapRatios
  sample : List (SemContext α) → List (SemContext α)

def estimatedCtxSampleSize : Nat := 100

structure BuildState (α : Type) where
  plan : List (PlanItem α)
  currentSegment : List (Stage α)
  stageOpsChain : List (TupleOp α)
  nextStageId : StageId
  nextPriorityOffset : Nat
  kv : KVMemoryManager

def BuildState.init (kv : KVMemoryManager) : BuildState α where
  plan := []
  currentSegment := []
  stageOpsChain := []
  nextStageId := 1
  nextPriorityOffset := 0
  kv := kv

def emitStage (st : BuildState α) : BuildState α :=
  if st.stageOpsChain.isEmpty then st
  else
    { st with
      currentSegment := st.currentSegment ++
        [stageBuilder st.kv st.stageOpsChain st.nextStageId st.nextPriorityOffset]
      nextStageId := st.nextStageId + 1
      nextPriorityOffset := st.nextPriorityOffset + st.stageOpsChain.length
      stageOpsChain := [] }

/-- The loop of `flush_segment` that fills `stage_min_caps`, following the contexts through
the fan-outs of the segment. -/
def stageMinCaps (env : BuildEnv α) :
    List (Stage α) → List (SemContext α) → Dict StageId Int → Dict StageId Int
  | [], _, caps => caps
  | stage :: rest, estimatedCtxs, caps =>
      let sampledCtxs :=
        if estimatedCtxs.length > estimatedCtxSampleSize then env.sample estimatedCtxs
        else estimatedCtxs
      let budgets := sampledCtxs.map fun ctx =>
        stage.estimateBudget env.ratios { ctx := ctx, stageIndex := 0, taskId := 0 }
      let caps := match budgets.max? with
        | none => caps
        | some budget => caps.set stage.stageId budget
      let estimatedCtxs := match stage.fanoutOp with
        | none => estimatedCtxs
        | some op => estimatedCtxs.flatMap op.planCall
      stageMinCaps env rest estimatedCtxs caps

/-- The budgets `assigned_caps`: every stage but the last gets its minimum, the last one
what is left. -/
def assignedCaps (totalCapacity : Int) (minCaps : Dict StageId Int) :
    List StageId → Int → List (StageId × Int)
  | [], _ => []
  | [last], spent => [(last, totalCapacity - spent)]
  | sid :: rest, spent =>
      (sid, minCaps.getD sid 0) ::
        assignedCaps totalCapacity minCaps rest (spent + minCaps.getD sid 0)

def registerStages (minCaps : Dict StageId Int) :
    List (StageId × Int) → KVMemoryManager → KVMemoryManager
  | [], kv => kv
  | (sid, assigned) :: rest, kv =>
      let assignedCap := max (kv.bytesPerToken : Int) assigned
      let protectedMinCap := minCaps.getD sid 0
      let initialFraction : ℚ := min 1 (assignedCap / kv.capacity)
      let maxFraction : ℚ := if rest.isEmpty then 1 else min 1 (initialFraction + 1 / 2)
      registerStages minCaps rest
        (kv.registerStage sid initialFraction (some 0) (some maxFraction) (some protectedMinCap))

def registerSegment (env : BuildEnv α) (segment : List (Stage α)) (kv : KVMemoryManager) :
    Except BuildError KVMemoryManager :=
  match segment.map Stage.stageId with
  | [] => .ok kv
  | [sid] => .ok (kv.registerStage sid 1 (some 1) (some 1) none)
  | stageIds =>
      if kv.capacity = 0 then .error (.zeroDivision kv)
      else
        let minCaps := stageMinCaps env segment env.ctxs .empty
        .ok (registerStages minCaps (assignedCaps kv.capacity minCaps stageIds 0) kv)

def flushSegment (env : BuildEnv α) (st : BuildState α) : Except BuildError (BuildState α) :=
  if st.currentSegment.isEmpty then .ok st
  else do
    let kv ← registerSegment env st.currentSegment st.kv
    return { st with
      plan := st.plan ++ [.segment st.currentSegment]
      currentSegment := []
      kv := kv }

def setLastFanout (op : JoinOp α) : List (Stage α) → List (Stage α)
  | [] => []
  | [last] => [{ last with fanoutOp := some op }]
  | stage :: next :: rest => stage :: setLastFanout op (next :: rest)

def buildOperator (env : BuildEnv α) (st : BuildState α) :
    BaseOp α → Except BuildError (BuildState α)
  | .tuple op => .ok { st with stageOpsChain := st.stageOpsChain ++ [op] }
  | .join op =>
      let st := emitStage st
      if st.currentSegment.isEmpty then do
        let st ← flushSegment env st
        return { st with plan := st.plan ++ [.join op] }
      else .ok { st with currentSegment := setLastFanout op st.currentSegment }
  | .blocking op => do
      let st ← flushSegment env (emitStage st)
      return { st with plan := st.plan ++ [.blocking op] }

def build (env : BuildEnv α) (kv : KVMemoryManager) (operators : List (BaseOp α)) :
    Except BuildError (List (PlanItem α) × KVMemoryManager) := do
  let st ← operators.foldlM (buildOperator env) (BuildState.init kv)
  let st ← flushSegment env (emitStage st)
  return (st.plan, st.kv)

theorem flushSegment_cases {env : BuildEnv α} {st st' : BuildState α}
    (flushed : flushSegment env st = .ok st') :
    (st.currentSegment = [] ∧ st' = st) ∨
      ∃ kv, registerSegment env st.currentSegment st.kv = .ok kv ∧ st' = { st with
        plan := st.plan ++ [.segment st.currentSegment]
        currentSegment := []
        kv := kv } := by
  unfold flushSegment at flushed
  split at flushed
  · rename_i noSegment
    cases flushed
    exact .inl ⟨List.isEmpty_iff.mp noSegment, rfl⟩
  · obtain ⟨kv, registered, same⟩ := bind_eq_ok.mp flushed
    cases same
    exact .inr ⟨kv, registered, rfl⟩

theorem build_eq_ok {env : BuildEnv α} {kv kv' : KVMemoryManager} {operators : List (BaseOp α)}
    {plan : List (PlanItem α)} (built : build env kv operators = .ok (plan, kv')) :
    ∃ st final, operators.foldlM (buildOperator env) (BuildState.init kv) = .ok st ∧
      flushSegment env (emitStage st) = .ok final ∧ final.plan = plan ∧ final.kv = kv' := by
  obtain ⟨st, folded, rest⟩ := bind_eq_ok.mp built
  obtain ⟨final, flushed, same⟩ := bind_eq_ok.mp rest
  cases same
  exact ⟨st, final, folded, flushed, rfl, rfl⟩

/-! ## What the operators seen so far leave behind -/

def SegmentOpen (ops : List (BaseOp α)) : Prop :=
  ∃ before op after, ops = before ++ op :: after ∧ op.behavior = .tupleIndependent ∧
    ∀ later ∈ after, later.behavior ≠ .blocking

def JoinAttached (ops : List (BaseOp α)) : Prop :=
  ∃ before op, ops = before ++ [op] ∧ op.behavior = .join ∧ SegmentOpen before

def StackedJoins (ops : List (BaseOp α)) : Prop :=
  ∃ before op after, ops = before ++ op :: after ∧ op.behavior = .join ∧ JoinAttached before

theorem segmentOpen_nil : ¬ SegmentOpen ([] : List (BaseOp α)) := by
  rintro ⟨before, op, after, split, -, -⟩
  simp at split

variable (env : BuildEnv α) (st : BuildState α) (ops : List (BaseOp α)) (op : BaseOp α)

theorem segmentOpen_snoc :
    SegmentOpen (ops ++ [op]) ↔
      op.behavior = .tupleIndependent ∨ (op.behavior ≠ .blocking ∧ SegmentOpen ops) := by
  constructor
  · rintro ⟨before, head, after, split, independent, noBlocking⟩
    rcases List.eq_nil_or_concat after with rfl | ⟨front, last, rfl⟩
    · obtain ⟨-, same⟩ := List.append_inj' split rfl
      cases same
      exact Or.inl independent
    · rw [List.concat_eq_append, ← List.cons_append, ← List.append_assoc] at split
      obtain ⟨opsEq, same⟩ := List.append_inj' split rfl
      cases same
      refine Or.inr ⟨noBlocking op (by simp), before, head, front, opsEq, independent, ?_⟩
      intro later member
      exact noBlocking later (by simp [member])
  · rintro (independent | ⟨notBlocking, before, head, after, rfl, independent, noBlocking⟩)
    · exact ⟨ops, op, [], rfl, independent, by simp⟩
    · refine ⟨before, head, after ++ [op], by simp, independent, ?_⟩
      intro later member
      rcases List.mem_append.mp member with member | member
      · exact noBlocking later member
      · rw [List.mem_singleton.mp member]
        exact notBlocking

theorem joinAttached_snoc : JoinAttached (ops ++ [op]) ↔ op.behavior = .join ∧ SegmentOpen ops := by
  constructor
  · rintro ⟨before, last, split, isJoin, isOpen⟩
    obtain ⟨rfl, same⟩ := List.append_inj' split rfl
    cases same
    exact ⟨isJoin, isOpen⟩
  · rintro ⟨isJoin, isOpen⟩
    exact ⟨ops, op, rfl, isJoin, isOpen⟩

theorem stackedJoins_snoc :
    StackedJoins (ops ++ [op]) ↔
      StackedJoins ops ∨ (op.behavior = .join ∧ JoinAttached ops) := by
  constructor
  · rintro ⟨before, head, after, split, isJoin, attached⟩
    rcases List.eq_nil_or_concat after with rfl | ⟨front, last, rfl⟩
    · obtain ⟨rfl, same⟩ := List.append_inj' split rfl
      cases same
      exact Or.inr ⟨isJoin, attached⟩
    · rw [List.concat_eq_append, ← List.cons_append, ← List.append_assoc] at split
      obtain ⟨opsEq, -⟩ := List.append_inj' split rfl
      exact Or.inl ⟨before, head, front, opsEq, isJoin, attached⟩
  · rintro (⟨before, head, after, rfl, isJoin, attached⟩ | ⟨isJoin, attached⟩)
    · exact ⟨before, head, after ++ [op], by simp, isJoin, attached⟩
    · exact ⟨ops, op, [], rfl, isJoin, attached⟩

/-! ## The content of a builder state -/

/-- The operators a builder state holds: finished items, open segment, pending chain. -/
def BuildState.content (st : BuildState α) : List (BaseOp α) :=
  st.plan.flatMap PlanItem.flatten ++ st.currentSegment.flatMap Stage.flatten ++
    st.stageOpsChain.map BaseOp.tuple

/-- The last stage of the open segment already has a fan-out, and nothing follows it. -/
def BuildState.Attached (st : BuildState α) : Prop :=
  st.stageOpsChain = [] ∧ ∃ front last, st.currentSegment = front ++ [last] ∧
    last.fanoutOp.isSome

theorem emitStage_chain : (emitStage st).stageOpsChain = [] := by
  unfold emitStage
  split
  · simpa using ‹st.stageOpsChain.isEmpty = true›
  · rfl

theorem emitStage_content : (emitStage st).content = st.content := by
  unfold emitStage
  split
  · rfl
  · simp [BuildState.content, Stage.flatten, stageBuilder]

/-- After `emit_stage` the open segment is empty exactly when nothing was pending. -/
theorem emitStage_segment_eq_nil :
    (emitStage st).currentSegment = [] ↔
      st.currentSegment = [] ∧ st.stageOpsChain = [] := by
  unfold emitStage
  by_cases empty : st.stageOpsChain = []
  · simp [empty]
  · have notEmpty : st.stageOpsChain.isEmpty = false := by simpa using empty
    simp [notEmpty, empty]

theorem emitStage_attached : (emitStage st).Attached ↔ st.Attached := by
  unfold emitStage
  by_cases empty : st.stageOpsChain = []
  · simp [empty]
  · have notEmpty : st.stageOpsChain.isEmpty = false := by simpa using empty
    simp only [notEmpty, Bool.false_eq_true, if_false, BuildState.Attached, empty, false_and,
      true_and, iff_false]
    rintro ⟨front, last, split, hasFanout⟩
    obtain ⟨-, same⟩ := List.append_inj' split rfl
    cases same
    simp [stageBuilder] at hasFanout

theorem flushSegment_spec (st st' : BuildState α) (chain : st.stageOpsChain = [])
    (flushed : flushSegment env st = .ok st') :
    st'.content = st.content ∧ st'.currentSegment = [] ∧ st'.stageOpsChain = [] := by
  obtain ⟨noSegment, rfl⟩ | ⟨kv, -, rfl⟩ := flushSegment_cases flushed
  · exact ⟨rfl, noSegment, chain⟩
  · simp [BuildState.content, PlanItem.flatten, chain]

theorem setLastFanout_append (op : JoinOp α) (front : List (Stage α)) (last : Stage α) :
    setLastFanout op (front ++ [last]) = front ++ [{ last with fanoutOp := some op }] := by
  induction front with
  | nil => rfl
  | cons stage rest ih =>
    cases rest with
    | nil => rfl
    | cons next rest =>
      simp only [List.cons_append, setLastFanout] at ih ⊢
      rw [ih]

/-- How the builder state reflects the operators `ops` it has consumed. -/
structure Tracks (ops : List (BaseOp α)) (st : BuildState α) : Prop where
  opened : ¬ (st.currentSegment = [] ∧ st.stageOpsChain = []) ↔ SegmentOpen ops
  attached : st.Attached ↔ JoinAttached ops
  kept : ¬ StackedJoins ops → st.content = ops
  length_le : st.content.length ≤ ops.length
  lost : StackedJoins ops → st.content.length < ops.length

theorem tracks_init (kv : KVMemoryManager) : Tracks ([] : List (BaseOp α))
    (BuildState.init kv) where
  opened := by simpa [BuildState.init] using segmentOpen_nil
  attached := by
    constructor
    · rintro ⟨-, front, last, split, -⟩
      simp [BuildState.init] at split
    · rintro ⟨before, op, split, -, -⟩
      simp at split
  kept := fun _ => rfl
  length_le := Nat.le_refl _
  lost := by
    rintro ⟨before, op, after, split, -, -⟩
    simp at split

variable {ops : List (BaseOp α)} {st st' : BuildState α}

/-- An operator that is appended to the content keeps the accounting. -/
theorem tracks_of_content_snoc {op : BaseOp α} (tracks : Tracks ops st)
    (content : st'.content = st.content ++ [op])
    (opened : ¬ (st'.currentSegment = [] ∧ st'.stageOpsChain = []) ↔ SegmentOpen (ops ++ [op]))
    (attached : st'.Attached ↔ JoinAttached (ops ++ [op]))
    (notStacked : ¬ (op.behavior = .join ∧ JoinAttached ops)) :
    Tracks (ops ++ [op]) st' where
  opened := opened
  attached := attached
  kept := by
    intro noStack
    rw [stackedJoins_snoc, not_or] at noStack
    rw [content, tracks.kept noStack.1]
  length_le := by
    have bound := tracks.length_le
    simp only [content, List.length_append, List.length_singleton]
    omega
  lost := by
    intro stack
    rw [stackedJoins_snoc] at stack
    have fewer := tracks.lost (stack.resolve_right notStacked)
    simp only [content, List.length_append, List.length_singleton]
    omega

theorem tracks_tuple {st : BuildState α} (op : TupleOp α) (tracks : Tracks ops st) :
    Tracks (ops ++ [.tuple op]) { st with stageOpsChain := st.stageOpsChain ++ [op] } := by
  refine tracks_of_content_snoc tracks ?_ ?_ ?_ ?_
  · simp [BuildState.content]
  · simp [segmentOpen_snoc, BaseOp.behavior]
  · simp [joinAttached_snoc, BaseOp.behavior, BuildState.Attached]
  · simp [BaseOp.behavior]

/-- An operator that becomes an item of the plan after the open segment. -/
theorem tracks_alone {op : BaseOp α} {item : PlanItem α} (isItem : item.flatten = [op])
    (tracks : Tracks ops st) (flushed : flushSegment env (emitStage st) = .ok st')
    (closes : ¬ SegmentOpen (ops ++ [op])) (apart : ¬ JoinAttached (ops ++ [op]))
    (notStacked : ¬ (op.behavior = .join ∧ JoinAttached ops)) :
    Tracks (ops ++ [op]) { st' with plan := st'.plan ++ [item] } := by
  obtain ⟨content, segment, chain⟩ :=
    flushSegment_spec env (emitStage st) st' (emitStage_chain st) flushed
  rw [emitStage_content] at content
  have contentPlan : st'.content = st'.plan.flatMap PlanItem.flatten := by
    simp [BuildState.content, segment, chain]
  refine tracks_of_content_snoc tracks ?_ ?_ ?_ notStacked
  · rw [← content, contentPlan]
    simp [BuildState.content, segment, chain, isItem]
  · simp [segment, chain, closes]
  · simp [BuildState.Attached, segment, apart]

theorem tracks_blocking (op : BlockingOp α) (tracks : Tracks ops st)
    (flushed : flushSegment env (emitStage st) = .ok st') :
    Tracks (ops ++ [.blocking op]) { st' with plan := st'.plan ++ [.blocking op] } := by
  apply tracks_alone env rfl tracks flushed
  · simp [segmentOpen_snoc, BaseOp.behavior]
  · simp [joinAttached_snoc, BaseOp.behavior]
  · simp [BaseOp.behavior]

theorem tracks_join_bare (op : JoinOp α) (tracks : Tracks ops st)
    (bare : (emitStage st).currentSegment = [])
    (flushed : flushSegment env (emitStage st) = .ok st') :
    Tracks (ops ++ [.join op]) { st' with plan := st'.plan ++ [.join op] } := by
  have closed : ¬ SegmentOpen ops := by
    rw [← tracks.opened, not_not]
    exact (emitStage_segment_eq_nil st).mp bare
  apply tracks_alone env rfl tracks flushed
  · simp [segmentOpen_snoc, BaseOp.behavior, closed]
  · simp [joinAttached_snoc, closed]
  · rintro ⟨-, attached⟩
    obtain ⟨-, front, last, split, -⟩ := tracks.attached.mpr attached
    simp [((emitStage_segment_eq_nil st).mp bare).1] at split

/-- A join in an open segment is stored in the last stage; what it holds already is lost. -/
theorem tracks_join_attached {st : BuildState α} (op : JoinOp α) (tracks : Tracks ops st)
    (isOpen : (emitStage st).currentSegment ≠ []) :
    Tracks (ops ++ [.join op])
      { emitStage st with
        currentSegment := setLastFanout op (emitStage st).currentSegment } := by
  have chain := emitStage_chain st
  have opened : SegmentOpen ops := by
    rw [← tracks.opened, ← emitStage_segment_eq_nil]
    exact isOpen
  obtain ⟨front, last, segment⟩ :=
    (List.eq_nil_or_concat (emitStage st).currentSegment).resolve_left isOpen
  rw [List.concat_eq_append] at segment
  have oldContent : st.content = (emitStage st).plan.flatMap PlanItem.flatten ++
      front.flatMap Stage.flatten ++ last.flatten := by
    rw [← emitStage_content]
    simp [BuildState.content, segment, chain]
  have newSegment : setLastFanout op (emitStage st).currentSegment =
      front ++ [{ last with fanoutOp := some op }] := by
    rw [segment, setLastFanout_append]
  have openedNext : ¬ (setLastFanout op (emitStage st).currentSegment = [] ∧
      (emitStage st).stageOpsChain = []) ↔ SegmentOpen (ops ++ [.join op]) := by
    simp [segmentOpen_snoc, BaseOp.behavior, opened, newSegment]
  have attachedNext : BuildState.Attached
      { emitStage st with currentSegment := setLastFanout op (emitStage st).currentSegment } ↔
        JoinAttached (ops ++ [.join op]) := by
    simp only [joinAttached_snoc, BaseOp.behavior, true_and, opened, iff_true]
    exact ⟨chain, front, _, newSegment, rfl⟩
  cases held : last.fanoutOp with
  | none =>
    refine tracks_of_content_snoc tracks ?_ openedNext attachedNext ?_
    · rw [oldContent]
      simp [BuildState.content, newSegment, chain, Stage.flatten, held]
    · rintro ⟨-, attached⟩
      rw [← tracks.attached, ← emitStage_attached] at attached
      obtain ⟨-, front', last', split, hasFanout⟩ := attached
      rw [segment] at split
      obtain ⟨-, same⟩ := List.append_inj' split rfl
      cases same
      simp [held] at hasFanout
  | some first =>
    have attachedNow : JoinAttached ops := by
      rw [← tracks.attached, ← emitStage_attached]
      exact ⟨chain, front, last, segment, by simp [held]⟩
    have sameLength : (BuildState.content
        { emitStage st with
          currentSegment := setLastFanout op (emitStage st).currentSegment }).length =
          st.content.length := by
      rw [oldContent]
      simp [BuildState.content, newSegment, chain, Stage.flatten, held]
    have bound := tracks.length_le
    refine ⟨openedNext, attachedNext, ?_, ?_, ?_⟩
    · intro noStack
      rw [stackedJoins_snoc, not_or] at noStack
      exact absurd ⟨rfl, attachedNow⟩ noStack.2
    · rw [sameLength, List.length_append, List.length_singleton]
      omega
    · intro _
      rw [sameLength, List.length_append, List.length_singleton]
      omega

theorem tracks_step (tracks : Tracks ops st) (step : buildOperator env st op = .ok st') :
    Tracks (ops ++ [op]) st' := by
  cases op with
  | tuple op =>
    cases step
    exact tracks_tuple op tracks
  | join op =>
    simp only [buildOperator] at step
    split at step
    · rename_i bare
      obtain ⟨flushedState, flushed, same⟩ := bind_eq_ok.mp step
      cases same
      exact tracks_join_bare env op tracks (by simpa using bare) flushed
    · rename_i isOpen
      cases step
      exact tracks_join_attached op tracks (by simpa using isOpen)
  | blocking op =>
    simp only [buildOperator] at step
    obtain ⟨flushedState, flushed, same⟩ := bind_eq_ok.mp step
    cases same
    exact tracks_blocking env op tracks flushed

/-- The builder loop: the state after any list of operators reflects that list. -/
theorem tracks_run (kv : KVMemoryManager) :
    ∀ (ops : List (BaseOp α)) (st : BuildState α),
      ops.foldlM (buildOperator env) (BuildState.init kv) = .ok st → Tracks ops st := by
  intro ops
  induction ops using List.reverseRecOn with
  | nil =>
    intro st run
    cases run
    exact tracks_init kv
  | append_singleton ops op ih =>
    intro st run
    rw [List.foldlM_append] at run
    obtain ⟨middle, first, last⟩ := bind_eq_ok.mp run
    simp only [List.foldlM_cons, List.foldlM_nil, bind_pure] at last
    exact tracks_step env op (ih middle first) last

theorem build_spec (kv kv' : KVMemoryManager) (ops : List (BaseOp α)) (plan : List (PlanItem α))
    (built : build env kv ops = .ok (plan, kv')) :
    ∃ st, Tracks ops st ∧ plan.flatMap PlanItem.flatten = st.content := by
  obtain ⟨st, final, run, flushed, rfl, -⟩ := build_eq_ok built
  obtain ⟨content, segment, chain⟩ :=
    flushSegment_spec env (emitStage st) final (emitStage_chain st) flushed
  refine ⟨st, tracks_run env kv ops st run, ?_⟩
  rw [← emitStage_content, ← content]
  simp [BuildState.content, segment, chain]

/-- Flattening the plan gives back the operators exactly when no join follows a join in an
open segment. -/
theorem build_preserves_operators_iff (env : BuildEnv α) (kv kv' : KVMemoryManager)
    (ops : List (BaseOp α)) (plan : List (PlanItem α))
    (built : build env kv ops = .ok (plan, kv')) :
    plan.flatMap PlanItem.flatten = ops ↔ ¬ StackedJoins ops := by
  obtain ⟨st, tracks, flattened⟩ := build_spec env kv kv' ops plan built
  rw [flattened]
  constructor
  · intro same stack
    have fewer := tracks.lost stack
    rw [same] at fewer
    exact Nat.lt_irrefl _ fewer
  · exact tracks.kept

def noContexts : BuildEnv Unit := ⟨[], fun _ => none, id⟩

theorem build_preserves_operators_filter_join :
    ∃ plan kv', build noContexts (.init 1 1)
        [.tuple (passOp Unit), .join (productOp Unit 2)] = .ok (plan, kv') ∧
      (plan.flatMap PlanItem.flatten = [.tuple (passOp Unit), .join (productOp Unit 2)] ↔
        ¬ StackedJoins [.tuple (passOp Unit), .join (productOp Unit 2)]) :=
  ⟨_, _, rfl, build_preserves_operators_iff noContexts (.init 1 1) _ _ _ rfl⟩

/-- `[filter, cp, cp]` is planned as `[filter, cp]`: the second product replaces the first. -/
theorem build_drops_stacked_join :
    ∃ plan kv', build noContexts (.init 1 1)
        [.tuple (passOp Unit), .join (productOp Unit 2), .join (productOp Unit 3)] =
        .ok (plan, kv') ∧
      plan.flatMap PlanItem.flatten = [.tuple (passOp Unit), .join (productOp Unit 3)] ∧
      plan.flatMap PlanItem.flatten ≠
        [.tuple (passOp Unit), .join (productOp Unit 2), .join (productOp Unit 3)] := by
  refine ⟨_, _, rfl, rfl, ?_⟩
  intro same
  exact absurd (congrArg List.length same) (by decide)

end Kalypso.Query
