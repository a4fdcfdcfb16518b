import Kalypso.Query.Plan

/-!
# What plan building does to the memory manager

The stages of every plan are numbered from 1, in the order in which they are emitted, and
closing a segment registers its stages.  Registration overwrites the counters: after `build`
the stage ids `1, …, stageCount operators` are registered and count nothing, and no other
stage id has changed.  A build that raises has registered some of these ids.
-/

set_option autoImplicit false

namespace Kalypso.Query

open Kalypso.Lib

variable {α : Type}

/-! ## Registering stages -/

namespace KVMemoryManager

structure Resets (kv kv' : KVMemoryManager) (ids : List StageId) : Prop where
  used : ∀ s, kv'.used s = if s ∈ ids then 0 else kv.used s
  inflight : ∀ s, kv'.inflight s = if s ∈ ids then 0 else kv.inflight s
  registered : ∀ s ∈ ids, kv'.Registered s
  grows : kv.Extends kv'
  bytes : kv'.bytesPerToken = kv.bytesPerToken

theorem Resets.refl (kv : KVMemoryManager) : kv.Resets kv [] where
  used := fun _ => by simp
  inflight := fun _ => by simp
  registered := fun _ member => nomatch member
  grows := fun _ registered => registered
  bytes := rfl

theorem Resets.trans {kv kv' kv'' : KVMemoryManager} {first second : List StageId}
    (before : kv.Resets kv' first) (after : kv'.Resets kv'' second) :
    kv.Resets kv'' (first ++ second) where
  used := by
    intro s
    rw [after.used, before.used]
    by_cases inSecond : s ∈ second <;> simp [inSecond]
  inflight := by
    intro s
    rw [after.inflight, before.inflight]
    by_cases inSecond : s ∈ second <;> simp [inSecond]
  registered := by
    intro s member
    rcases List.mem_append.mp member with inFirst | inSecond
    · exact after.grows s (before.registered s inFirst)
    · exact after.registered s inSecond
  grows := before.grows.trans after.grows
  bytes := after.bytes.trans before.bytes

theorem registerStage_resets (kv : KVMemoryManager) (stageId : StageId) (fraction : ℚ)
    (minFraction maxFraction : Option ℚ) (minCapacityBytes : Option Int) :
    kv.Resets (kv.registerStage stageId fraction minFraction maxFraction minCapacityBytes)
      [stageId] where
  used := by
    intro s
    simp only [KVMemoryManager.used, registerStage, getD_set, List.mem_singleton]
  inflight := by
    intro s
    simp only [KVMemoryManager.inflight, registerStage, getD_set, List.mem_singleton]
  registered := by
    intro s member
    rw [List.mem_singleton.mp member]
    refine ⟨?_, ?_, ?_⟩
    all_goals simp [registerStage]
  grows := by
    intro s registered
    exact ⟨isSome_get?_set _ _ _ _ registered.1, isSome_get?_set _ _ _ _ registered.2.1,
      isSome_get?_set _ _ _ _ registered.2.2⟩
  bytes := rfl

end KVMemoryManager

theorem registerStages_resets (minCaps : Dict StageId Int) (caps : List (StageId × Int)) :
    ∀ kv : KVMemoryManager,
      kv.Resets (registerStages minCaps caps kv) (caps.map Prod.fst) := by
  induction caps with
  | nil =>
    intro kv
    exact .refl kv
  | cons cap caps ih =>
    intro kv
    exact (kv.registerStage_resets _ _ _ _ _).trans (ih _)

theorem assignedCaps_ids (totalCapacity : Int) (minCaps : Dict StageId Int) (ids : List StageId) :
    ∀ spent : Int, (assignedCaps totalCapacity minCaps ids spent).map Prod.fst = ids := by
  induction ids with
  | nil =>
    intro spent
    rfl
  | cons sid ids ih =>
    intro spent
    cases ids with
    | nil => rfl
    | cons next rest => rw [assignedCaps, List.map_cons, ih]; simp

theorem registerSegment_ok {env : BuildEnv α} {segment : List (Stage α)}
    {kv kv' : KVMemoryManager} (registers : registerSegment env segment kv = .ok kv') :
    kv.Resets kv' (segment.map Stage.stageId) := by
  unfold registerSegment at registers
  split at registers
  · rename_i noIds
    cases registers
    rw [noIds]
    exact .refl kv
  · rename_i sid oneId
    cases registers
    rw [oneId]
    exact kv.registerStage_resets _ _ _ _ _
  · split at registers
    · cases registers
    · cases registers
      have resets := registerStages_resets (stageMinCaps env segment env.ctxs .empty)
        (assignedCaps kv.capacity (stageMinCaps env segment env.ctxs .empty)
          (segment.map Stage.stageId) 0) kv
      rw [assignedCaps_ids] at resets
      exact resets

theorem registerSegment_error {env : BuildEnv α} {segment : List (Stage α)}
    {kv kv' : KVMemoryManager}
    (raises : registerSegment env segment kv = .error (.zeroDivision kv')) : kv' = kv := by
  unfold registerSegment at raises
  split at raises
  · cases raises
  · cases raises
  · split at raises
    · cases raises
      rfl
    · cases raises

/-! ## Numbering -/

/-- The number of maximal runs of tuple-independent operators; `isOpen` tells that the list
continues one. -/
def stageCountFrom (isOpen : Bool) : List (BaseOp α) → Nat
  | [] => 0
  | .tuple _ :: rest => (if isOpen then 0 else 1) + stageCountFrom true rest
  | _ :: rest => stageCountFrom false rest

def stageCount (operators : List (BaseOp α)) : Nat := stageCountFrom false operators

def PlanItem.stageIds : PlanItem α → List StageId
  | .segment stages => stages.map Stage.stageId
  | _ => []

def planIds (plan : List (PlanItem α)) : List StageId := plan.flatMap PlanItem.stageIds

structure Stage.Built (P : TupleOp α → Prop) (bytes : Nat) (stage : Stage α) : Prop where
  nonempty : stage.operators ≠ []
  operators : ∀ op ∈ stage.operators, P op
  bytes : stage.bytesPerToken = bytes

structure Numbered (kv : KVMemoryManager) (P : TupleOp α → Prop) (st : BuildState α) :
    Prop where
  resets : kv.Resets st.kv (planIds st.plan)
  ids : ∃ n : Nat, st.nextStageId = n + 1 ∧
    planIds st.plan ++ st.currentSegment.map Stage.stageId = List.range' 1 n
  plan : ∀ stages, .segment stages ∈ st.plan → ∀ stage ∈ stages, stage.Built P kv.bytesPerToken
  current : ∀ stage ∈ st.currentSegment, stage.Built P kv.bytesPerToken
  chain : ∀ op ∈ st.stageOpsChain, P op

/-- The id that follows the last stage of the plan, with the operators `rest` still to come. -/
def BuildState.top (st : BuildState α) (rest : List (BaseOp α)) : Nat :=
  st.nextStageId +
    if st.stageOpsChain.isEmpty then stageCountFrom false rest
    else 1 + stageCountFrom true rest

section Numbered

variable {kv : KVMemoryManager} {P : TupleOp α → Prop} {st st' : BuildState α}
  {env : BuildEnv α} {rest : List (BaseOp α)}

theorem numbered_init (kv : KVMemoryManager) (P : TupleOp α → Prop) :
    Numbered kv P (BuildState.init kv) where
  resets := .refl kv
  ids := ⟨0, rfl, rfl⟩
  plan := fun _ member => nomatch member
  current := fun _ member => nomatch member
  chain := fun _ member => nomatch member

theorem numbered_emitStage (numbered : Numbered kv P st) : Numbered kv P (emitStage st) := by
  unfold emitStage
  split
  · exact numbered
  · rename_i nonempty
    obtain ⟨n, next, ids⟩ := numbered.ids
    refine ⟨numbered.resets, ⟨n + 1, congrArg (· + 1) next, ?_⟩, numbered.plan, ?_,
      fun _ member => nomatch member⟩
    · rw [List.map_append, ← List.append_assoc, ids, List.range'_concat]
      simp [stageBuilder, next, Nat.add_comm]
    · intro stage member
      rcases List.mem_append.mp member with old | new
      · exact numbered.current stage old
      · rw [List.mem_singleton.mp new]
        exact ⟨by simpa [stageBuilder] using nonempty, numbered.chain, numbered.resets.bytes⟩

theorem planIds_append_segment (plan : List (PlanItem α)) (stages : List (Stage α)) :
    planIds (plan ++ [.segment stages]) = planIds plan ++ stages.map Stage.stageId := by
  simp [planIds, PlanItem.stageIds]

theorem flushSegment_numbered (numbered : Numbered kv P st)
    (flushes : flushSegment env st = .ok st') :
    Numbered kv P st' ∧ st'.nextStageId = st.nextStageId ∧
      st'.stageOpsChain = st.stageOpsChain ∧ st'.currentSegment = [] := by
  obtain ⟨noSegment, rfl⟩ | ⟨kv', registered, rfl⟩ := flushSegment_cases flushes
  · exact ⟨numbered, rfl, rfl, noSegment⟩
  · refine ⟨⟨?_, ?_, ?_, fun _ member => (nomatch member), numbered.chain⟩, rfl, rfl, rfl⟩
    · rw [planIds_append_segment]
      exact numbered.resets.trans (registerSegment_ok registered)
    · rw [planIds_append_segment]
      simpa using numbered.ids
    · intro stages member stage isStage
      rcases List.mem_append.mp member with old | new
      · exact numbered.plan stages old stage isStage
      · cases List.mem_singleton.mp new
        exact numbered.current stage isStage

theorem flushSegment_error {kv' : KVMemoryManager}
    (raises : flushSegment env st = .error (.zeroDivision kv')) : kv' = st.kv := by
  unfold flushSegment at raises
  split at raises
  · cases raises
  · cases result : registerSegment env st.currentSegment st.kv with
    | error error =>
      rw [result] at raises
      cases raises
      exact registerSegment_error result
    | ok registered =>
      rw [result] at raises
      cases raises

theorem numbered_item (numbered : Numbered kv P st) (item : PlanItem α)
    (noStages : item.stageIds = []) (isItem : ∀ stages, item ≠ .segment stages) :
    Numbered kv P { st with plan := st.plan ++ [item] } := by
  have ids : planIds (st.plan ++ [item]) = planIds st.plan := by
    simp [planIds, noStages]
  refine ⟨?_, ?_, ?_, numbered.current, numbered.chain⟩
  · rw [ids]
    exact numbered.resets
  · rw [ids]
    exact numbered.ids
  · intro stages member
    rcases List.mem_append.mp member with old | new
    · exact numbered.plan stages old
    · exact absurd (List.mem_singleton.mp new).symm (isItem stages)

theorem setLastFanout_ids (op : JoinOp α) (segment : List (Stage α)) :
    (setLastFanout op segment).map Stage.stageId = segment.map Stage.stageId := by
  fun_induction setLastFanout op segment with
  | case1 => rfl
  | case2 => rfl
  | case3 stage next rest ih => rw [List.map_cons, ih, ← List.map_cons]

theorem setLastFanout_built {bytes : Nat} (op : JoinOp α) (segment : List (Stage α))
    (built : ∀ stage ∈ segment, stage.Built P bytes) :
    ∀ stage ∈ setLastFanout op segment, stage.Built P bytes := by
  fun_induction setLastFanout op segment with
  | case1 => exact built
  | case2 last =>
    intro stage member
    rw [List.mem_singleton.mp member]
    have lastBuilt := built last (List.mem_singleton_self last)
    exact ⟨lastBuilt.nonempty, lastBuilt.operators, lastBuilt.bytes⟩
  | case3 stage next rest ih =>
    intro other member
    rcases List.mem_cons.mp member with rfl | later
    · exact built other (List.mem_cons_self ..)
    · exact ih (fun s isStage => built s (List.mem_cons_of_mem _ isStage)) other later

theorem top_of_boundary {op : BaseOp α} (boundary : ∀ tuple, op ≠ .tuple tuple)
    (next : st'.nextStageId = (emitStage st).nextStageId) (chain : st'.stageOpsChain = []) :
    st'.top rest = st.top (op :: rest) := by
  have counts : ∀ isOpen, stageCountFrom isOpen (op :: rest) = stageCountFrom false rest := by
    intro isOpen
    cases op with
    | tuple tuple => exact absurd rfl (boundary tuple)
    | join op => rfl
    | blocking op => rfl
  simp only [BuildState.top, next, chain, counts, emitStage, List.isEmpty_nil, if_true]
  split
  · rfl
  · exact Nat.add_assoc _ _ _

theorem buildOperator_numbered (rest : List (BaseOp α)) (numbered : Numbered kv P st)
    {op : BaseOp α} (fine : ∀ tuple, op = .tuple tuple → P tuple)
    (builds : buildOperator env st op = .ok st') :
    Numbered kv P st' ∧ st'.top rest = st.top (op :: rest) := by
  have emitted := numbered_emitStage numbered
  have closed := emitStage_chain st
  cases op with
  | tuple op =>
    cases builds
    refine ⟨⟨numbered.resets, numbered.ids, numbered.plan, numbered.current, ?_⟩, ?_⟩
    · intro other member
      rcases List.mem_append.mp member with old | new
      · exact numbered.chain other old
      · rw [List.mem_singleton.mp new]
        exact fine op rfl
    · simp only [BuildState.top, stageCountFrom]
      cases st.stageOpsChain with
      | nil => simp
      | cons first chain => simp
  | join op =>
    simp only [buildOperator] at builds
    split at builds
    · obtain ⟨flushed, flushes, same⟩ := bind_eq_ok.mp builds
      cases same
      obtain ⟨numbered', next, chain, -⟩ := flushSegment_numbered emitted flushes
      exact ⟨numbered_item numbered' (.join op) rfl (fun _ same => by cases same),
        top_of_boundary (fun _ same => by cases same) next (chain.trans closed)⟩
    · cases builds
      refine ⟨⟨emitted.resets, ?_, emitted.plan, setLastFanout_built op _ emitted.current,
        emitted.chain⟩, top_of_boundary (fun _ same => by cases same) rfl closed⟩
      rw [setLastFanout_ids]
      exact emitted.ids
  | blocking op =>
    simp only [buildOperator] at builds
    obtain ⟨flushed, flushes, same⟩ := bind_eq_ok.mp builds
    cases same
    obtain ⟨numbered', next, chain, -⟩ := flushSegment_numbered emitted flushes
    exact ⟨numbered_item numbered' (.blocking op) rfl (fun _ same => by cases same),
      top_of_boundary (fun _ same => by cases same) next (chain.trans closed)⟩

theorem buildOperator_error {op : BaseOp α} {kv' : KVMemoryManager}
    (raises : buildOperator env st op = .error (.zeroDivision kv')) : kv' = st.kv := by
  have same : (emitStage st).kv = st.kv := by
    unfold emitStage
    split <;> rfl
  have flush : ∀ item, (do
      let st ← flushSegment env (emitStage st)
      return { st with plan := st.plan ++ [item] }) = .error (.zeroDivision kv') → kv' = st.kv := by
    intro item raises
    cases flushes : flushSegment env (emitStage st) with
    | error error =>
      rw [flushes] at raises
      cases raises
      exact (flushSegment_error flushes).trans same
    | ok flushed =>
      rw [flushes] at raises
      cases raises
  cases op with
  | tuple op => cases raises
  | join op =>
    simp only [buildOperator] at raises
    split at raises
    · exact flush _ raises
    · cases raises
  | blocking op => exact flush _ raises

theorem emitStage_next (st : BuildState α) : (emitStage st).nextStageId = st.top [] := by
  unfold emitStage BuildState.top
  split
  · rfl
  · rfl

theorem Numbered.below (numbered : Numbered kv P st) (rest : List (BaseOp α)) :
    ∀ s ∈ planIds st.plan, 1 ≤ s ∧ s < st.top rest := by
  intro s member
  obtain ⟨n, next, ids⟩ := numbered.ids
  have inRange : s ∈ List.range' 1 n := by
    rw [← ids]
    exact List.mem_append_left _ member
  rw [List.mem_range'_1] at inRange
  refine ⟨inRange.1, Nat.lt_of_lt_of_le ?_ (Nat.le_add_right _ _)⟩
  rw [next, Nat.add_comm]
  exact inRange.2

theorem foldlM_numbered (env : BuildEnv α) (operators : List (BaseOp α)) : ∀ st : BuildState α,
    Numbered kv P st → (∀ tuple, .tuple tuple ∈ operators → P tuple) →
      match operators.foldlM (buildOperator env) st with
      | .ok st' => Numbered kv P st' ∧ st'.top [] = st.top operators
      | .error (.zeroDivision kv') => ∃ ids, kv.Resets kv' ids ∧
          ∀ s ∈ ids, 1 ≤ s ∧ s < st.top operators := by
  induction operators with
  | nil =>
    intro st numbered _
    exact ⟨numbered, rfl⟩
  | cons op rest ih =>
    intro st numbered fine
    rw [List.foldlM_cons]
    cases builds : buildOperator env st op with
    | error error =>
      obtain ⟨kv'⟩ := error
      refine ⟨planIds st.plan, ?_, numbered.below _⟩
      rw [buildOperator_error builds]
      exact numbered.resets
    | ok st' =>
      obtain ⟨numbered', counted⟩ := buildOperator_numbered rest numbered
        (fun tuple same => fine tuple (same ▸ List.mem_cons_self ..)) builds
      rw [← counted]
      exact ih st' numbered' fun tuple member => fine tuple (List.mem_cons_of_mem _ member)

end Numbered

section Build

variable {env : BuildEnv α} {kv kv' : KVMemoryManager} {operators : List (BaseOp α)}

/-- After planning, the ids from 1 to `stageCount operators` are registered and count
nothing; they are the ids of the plan, in order. -/
theorem build_ok {P : TupleOp α → Prop} (fine : ∀ tuple, .tuple tuple ∈ operators → P tuple)
    {plan : List (PlanItem α)} (built : build env kv operators = .ok (plan, kv')) :
    kv.Resets kv' (List.range' 1 (stageCount operators)) ∧
      planIds plan = List.range' 1 (stageCount operators) ∧
      ∀ stages, .segment stages ∈ plan → ∀ stage ∈ stages,
        stage.Built P kv.bytesPerToken := by
  have folded := foldlM_numbered env operators _ (numbered_init kv P) fine
  obtain ⟨st, final, result, flushes, rfl, rfl⟩ := build_eq_ok built
  rw [result] at folded
  obtain ⟨numbered, counted⟩ := folded
  obtain ⟨numbered', next, chain, noSegment⟩ :=
    flushSegment_numbered (numbered_emitStage numbered) flushes
  obtain ⟨n, nextEq, ids⟩ := numbered'.ids
  have total : n = stageCount operators := by
    rw [next, emitStage_next, counted] at nextEq
    exact Nat.add_right_cancel (nextEq.symm.trans (Nat.add_comm 1 _))
  rw [noSegment, List.map_nil, List.append_nil, total] at ids
  rw [← ids]
  exact ⟨numbered'.resets, rfl, numbered'.plan⟩

theorem build_error (raised : build env kv operators = .error (.zeroDivision kv')) :
    ∃ ids, kv.Resets kv' ids ∧ ∀ s ∈ ids, 1 ≤ s ∧ s ≤ stageCount operators := by
  have folded := foldlM_numbered env operators _ (numbered_init kv fun _ => True)
    (fun _ _ => trivial)
  have within : ∀ s, s < (BuildState.init kv).top operators → s ≤ stageCount operators := by
    intro s below
    exact Nat.le_of_lt_succ (Nat.lt_of_lt_of_eq below (Nat.add_comm 1 _))
  unfold build at raised
  cases result : operators.foldlM (buildOperator env) (BuildState.init kv) with
  | error error =>
    rw [result] at raised folded
    cases raised
    obtain ⟨ids, resets, bounds⟩ := folded
    exact ⟨ids, resets, fun s member => ⟨(bounds s member).1, within s (bounds s member).2⟩⟩
  | ok st =>
    rw [result] at raised folded
    obtain ⟨numbered, counted⟩ := folded
    cases flushes : flushSegment env (emitStage st) with
    | ok final => simp [flushes, bind, Except.bind, pure, Except.pure] at raised
    | error error =>
      simp only [bind, Except.bind, flushes, Except.error.injEq] at raised
      subst raised
      have emitted := numbered_emitStage numbered
      refine ⟨planIds (emitStage st).plan, ?_, ?_⟩
      · rw [flushSegment_error flushes]
        exact emitted.resets
      · intro s member
        obtain ⟨positive, below⟩ := emitted.below [] s member
        refine ⟨positive, within s ?_⟩
        rw [← counted, ← emitStage_next]
        simpa [BuildState.top, emitStage_chain, stageCountFrom] using below

end Build

end Kalypso.Query
