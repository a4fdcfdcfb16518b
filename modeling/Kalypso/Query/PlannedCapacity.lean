import Mathlib.Algebra.Order.BigOperators.Group.List
import Kalypso.Lib.Raise
import Kalypso.Query.Capacities

/-!
# The capacity of a planned segment

Closing a segment with several stages gives every stage but the last its minimal budget and the
last one what is left.  Each amount is raised to `bytes_per_token` and cut at the capacity, so
the stages together may get more than the manager has.
-/

set_option autoImplicit false

namespace Kalypso.Query

open Kalypso.Lib

variable {α : Type}

/-! ## The amounts -/

def BuildEnv.sampled (env : BuildEnv α) (ctxs : List (SemContext α)) : List (SemContext α) :=
  if ctxs.length > estimatedCtxSampleSize then env.sample ctxs else ctxs

def Stage.planned (stage : Stage α) (ctxs : List (SemContext α)) : List (SemContext α) :=
  match stage.fanoutOp with
  | none => ctxs
  | some op => ctxs.flatMap op.planCall

/-- The largest estimate of a stage over the contexts that enter it; 0 without contexts. -/
def Stage.largestBudget (env : BuildEnv α) (stage : Stage α) (ctxs : List (SemContext α)) : Int :=
  (((env.sampled ctxs).map fun ctx =>
    stage.estimateBudget env.ratios { ctx := ctx, stageIndex := 0, taskId := 0 }).max?).getD 0

def largestBudgets (env : BuildEnv α) : List (Stage α) → List (SemContext α) → List Int
  | [], _ => []
  | stage :: rest, ctxs =>
      stage.largestBudget env ctxs :: largestBudgets env rest (stage.planned ctxs)

theorem length_largestBudgets (env : BuildEnv α) (stages : List (Stage α)) :
    ∀ ctxs, (largestBudgets env stages ctxs).length = stages.length := by
  induction stages with
  | nil =>
    intro ctxs
    rfl
  | cons stage rest ih =>
    intro ctxs
    rw [largestBudgets, List.length_cons, List.length_cons, ih]

open KVMemoryManager

theorem stageMinCaps_getD_of_notMem (env : BuildEnv α) (sid : StageId) (stages : List (Stage α)) :
    ∀ ctxs caps, sid ∉ stages.map Stage.stageId →
      (stageMinCaps env stages ctxs caps).getD sid 0 = caps.getD sid 0 := by
  induction stages with
  | nil =>
    intro ctxs caps _
    rfl
  | cons stage rest ih =>
    intro ctxs caps absent
    rw [List.map_cons, List.mem_cons, not_or] at absent
    rw [stageMinCaps, ih _ _ absent.2]
    split
    · rfl
    · rw [getD_set, if_neg absent.1]

theorem stageMinCaps_eq_largestBudgets (env : BuildEnv α) (stages : List (Stage α)) :
    ∀ ctxs caps, (stages.map Stage.stageId).Nodup →
      (∀ sid ∈ stages.map Stage.stageId, caps.getD sid 0 = 0) →
      (stages.map fun stage => (stageMinCaps env stages ctxs caps).getD stage.stageId 0) =
        largestBudgets env stages ctxs := by
  induction stages with
  | nil =>
    intro ctxs caps _ _
    rfl
  | cons stage rest ih =>
    intro ctxs caps distinct unset
    rw [List.map_cons, List.nodup_cons] at distinct
    have ownUnset := unset stage.stageId List.mem_cons_self
    rw [List.map_cons, largestBudgets]
    congr 1
    · rw [stageMinCaps, stageMinCaps_getD_of_notMem env _ rest _ _ distinct.1]
      unfold Stage.largestBudget BuildEnv.sampled
      split
      · rename_i noBudget
        rw [noBudget]
        exact ownUnset
      · rename_i budget isLargest
        rw [isLargest, getD_set, if_pos rfl]
        rfl
    · rw [stageMinCaps]
      apply ih _ _ distinct.2
      intro sid member
      have other : sid ≠ stage.stageId := fun same => distinct.1 (same ▸ member)
      split
      · exact unset sid (List.mem_cons_of_mem _ member)
      · rw [getD_set, if_neg other]
        exact unset sid (List.mem_cons_of_mem _ member)

theorem assignedCaps_append (total : Int) (minCaps : Dict StageId Int) (last : StageId)
    (early : List StageId) : ∀ spent,
      assignedCaps total minCaps (early ++ [last]) spent =
        early.map (fun sid => (sid, minCaps.getD sid 0)) ++
          [(last, total - (spent + (early.map fun sid => minCaps.getD sid 0).sum))] := by
  induction early with
  | nil =>
    intro spent
    simp [assignedCaps]
  | cons sid rest ih =>
    intro spent
    have unfolded : assignedCaps total minCaps (sid :: (rest ++ [last])) spent =
        (sid, minCaps.getD sid 0) ::
          assignedCaps total minCaps (rest ++ [last]) (spent + minCaps.getD sid 0) := by
      cases rest with
      | nil => rfl
      | cons next rest => rfl
    rw [List.cons_append, unfolded, ih]
    simp [add_assoc]

/-! ## Sums of clamped amounts -/

def clamp (low high amount : Int) : Int := min high (max low amount)

section Clamp

variable {low high : Int}

theorem clamp_pos (lowPos : 0 < low) (highPos : 0 < high) (amount : Int) :
    0 < clamp low high amount := by
  unfold clamp
  omega

theorem le_sum_clamp (lowPos : 0 < low) (highPos : 0 < high) (amounts : List Int) {amount : Int}
    (member : amount ∈ amounts) : clamp low high amount ≤ (amounts.map (clamp low high)).sum := by
  apply List.single_le_sum
  · intro clamped isClamped
    obtain ⟨other, -, rfl⟩ := List.mem_map.mp isClamped
    exact (clamp_pos lowPos highPos other).le
  · exact List.mem_map_of_mem member

/-- Amounts and the remainder, each clamped, fit exactly when no clamp acts. -/
theorem sum_clamp_le_iff (lowPos : 0 < low) (highPos : 0 < high) (amounts : List Int)
    (nonempty : amounts ≠ []) :
    (amounts.map (clamp low high)).sum + clamp low high (high - amounts.sum) ≤ high ↔
      (∀ amount ∈ amounts, low ≤ amount) ∧ amounts.sum + low ≤ high := by
  constructor
  · intro fits
    have lastPos := clamp_pos lowPos highPos (high - amounts.sum)
    have uncut : ∀ amount ∈ amounts, clamp low high amount = max low amount := by
      intro amount member
      have small := le_sum_clamp lowPos highPos amounts member
      unfold clamp at small lastPos fits ⊢
      omega
    obtain ⟨first, isFirst⟩ := List.exists_mem_of_ne_nil amounts nonempty
    have firstPos := clamp_pos lowPos highPos first
    have firstLe := le_sum_clamp lowPos highPos amounts isFirst
    have lastUncut : clamp low high (high - amounts.sum) = max low (high - amounts.sum) := by
      unfold clamp at firstPos firstLe fits ⊢
      omega
    have raises : ∀ amount ∈ amounts, amount ≤ clamp low high amount := by
      intro amount member
      rw [uncut amount member]
      exact le_max_right _ _
    have sumLe : amounts.sum ≤ (amounts.map (clamp low high)).sum := by
      have termwise := List.sum_le_sum raises
      rwa [List.map_id'] at termwise
    refine ⟨?_, ?_⟩
    · by_contra small
      push Not at small
      obtain ⟨amount, member, below⟩ := small
      have strictly : amounts.sum < (amounts.map (clamp low high)).sum := by
        have termwise := List.sum_lt_sum (fun amount => amount) (clamp low high) raises
          ⟨amount, member, by rw [uncut amount member]; exact lt_max_of_lt_left below⟩
        rwa [List.map_id'] at termwise
      omega
    · omega
  · rintro ⟨large, room⟩
    have sumPos : ∀ amount ∈ amounts, amount ≤ amounts.sum := by
      apply List.single_le_sum
      intro amount member
      exact lowPos.le.trans (large amount member)
    have uncut : amounts.map (clamp low high) = amounts := by
      refine (List.map_congr_left ?_).trans (List.map_id amounts)
      intro amount member
      have atLeast := large amount member
      have atMost := sumPos amount member
      simp only [clamp, id]
      omega
    obtain ⟨first, isFirst⟩ := List.exists_mem_of_ne_nil amounts nonempty
    have atLeast := large first isFirst
    have atMost := sumPos first isFirst
    rw [uncut]
    unfold clamp
    omega

end Clamp

/-! ## Registration -/

namespace KVMemoryManager

theorem capacityOf_registerStage (kv : KVMemoryManager) (stageId : StageId) (fraction : ℚ)
    (minFraction maxFraction : Option ℚ) (minCapacityBytes : Option Int) (id : StageId) :
    (kv.registerStage stageId fraction minFraction maxFraction minCapacityBytes).capacityOf id =
      if id = stageId then kv.capacity * fraction else kv.capacityOf id :=
  capacityOf_set kv stageId id (kv.capacity * fraction)

def SameDevice (kv kv' : KVMemoryManager) : Prop :=
  kv'.capacity = kv.capacity ∧ kv'.bytesPerToken = kv.bytesPerToken

end KVMemoryManager

open KVMemoryManager

theorem capacity_mul_fraction {capacity : Int} (positive : 0 < capacity) (low assigned : Int) :
    (capacity : ℚ) * min 1 (((max low assigned : Int) : ℚ) / capacity) =
      (clamp low capacity assigned : Int) := by
  have nonzero : (capacity : ℚ) ≠ 0 := by exact_mod_cast positive.ne'
  have nonneg : (0 : ℚ) ≤ capacity := by exact_mod_cast positive.le
  rw [mul_min_of_nonneg _ _ nonneg, mul_one, mul_div_cancel₀ _ nonzero, clamp, Int.cast_min]

theorem registerStages_device (minCaps : Dict StageId Int) (caps : List (StageId × Int)) :
    ∀ kv : KVMemoryManager, kv.SameDevice (registerStages minCaps caps kv) := by
  induction caps with
  | nil =>
    intro kv
    exact ⟨rfl, rfl⟩
  | cons cap caps ih =>
    intro kv
    exact ih _

theorem registerStages_capacityOf_of_notMem (minCaps : Dict StageId Int) (id : StageId)
    (caps : List (StageId × Int)) :
    ∀ kv : KVMemoryManager, id ∉ caps.map Prod.fst →
      (registerStages minCaps caps kv).capacityOf id = kv.capacityOf id := by
  induction caps with
  | nil =>
    intro kv _
    rfl
  | cons cap caps ih =>
    intro kv absent
    rw [List.map_cons, List.mem_cons, not_or] at absent
    rw [registerStages, ih _ absent.2, capacityOf_registerStage, if_neg absent.1]

theorem registerStages_capacityOf (minCaps : Dict StageId Int) (caps : List (StageId × Int)) :
    ∀ kv : KVMemoryManager, 0 < kv.capacity → (caps.map Prod.fst).Nodup →
      ∀ cap ∈ caps, (registerStages minCaps caps kv).capacityOf cap.1 =
        (clamp kv.bytesPerToken kv.capacity cap.2 : Int) := by
  induction caps with
  | nil =>
    intro kv _ _ cap member
    cases member
  | cons first caps ih =>
    obtain ⟨sid, assigned⟩ := first
    intro kv positive distinct cap member
    rw [List.map_cons, List.nodup_cons] at distinct
    rcases List.mem_cons.mp member with rfl | later
    · rw [registerStages, registerStages_capacityOf_of_notMem _ _ _ _ distinct.1,
        capacityOf_registerStage, if_pos rfl]
      exact capacity_mul_fraction positive _ _
    · rw [registerStages]
      refine ih _ ?_ distinct.2 cap later
      exact positive

variable {kv kv' : KVMemoryManager} {segment : List (Stage α)} {env : BuildEnv α}

theorem registerSegment_device (registers : registerSegment env segment kv = .ok kv') :
    kv.SameDevice kv' := by
  unfold registerSegment at registers
  split at registers
  · cases registers
    exact ⟨rfl, rfl⟩
  · cases registers
    exact ⟨rfl, rfl⟩
  · split at registers
    · cases registers
    · cases registers
      exact registerStages_device _ _ kv

theorem registerSegment_outside (registers : registerSegment env segment kv = .ok kv')
    {id : StageId} (out : id ∉ segment.map Stage.stageId) :
    kv'.capacityOf id = kv.capacityOf id := by
  unfold registerSegment at registers
  split at registers
  · cases registers
    rfl
  · rename_i sid oneId
    cases registers
    rw [oneId, List.mem_singleton] at out
    rw [capacityOf_registerStage, if_neg out]
  · split at registers
    · cases registers
    · cases registers
      apply registerStages_capacityOf_of_notMem
      rwa [assignedCaps_ids]

/-- The capacities of a segment as planning intends them: `early` amounts and the rest. -/
def intendedCapacities (kv : KVMemoryManager) (early : List Int) : List ℚ :=
  (early ++ [kv.capacity - early.sum]).map fun amount =>
    (clamp kv.bytesPerToken kv.capacity amount : Int)

/-- What registration gives the stages of a segment with several stages. -/
theorem registerSegment_capacities (positive : 0 < kv.capacity)
    (distinct : (segment.map Stage.stageId).Nodup) (several : 2 ≤ segment.length)
    (registers : registerSegment env segment kv = .ok kv') :
    (segment.map fun stage => kv'.capacityOf stage.stageId) =
      intendedCapacities kv (largestBudgets env segment env.ctxs).dropLast := by
  obtain ⟨early, last, rfl⟩ :=
    (List.eq_nil_or_concat segment).resolve_left (by rintro rfl; simp at several)
  rw [List.concat_eq_append] at *
  have budgets := stageMinCaps_eq_largestBudgets env (early ++ [last]) env.ctxs .empty distinct
    (fun _ _ => rfl)
  unfold registerSegment at registers
  split at registers
  · rename_i noIds
    simp at noIds
  · rename_i sid oneId
    have one := congrArg List.length oneId
    simp only [List.length_map, List.length_singleton] at one
    omega
  · rw [if_neg positive.ne'] at registers
    cases registers
    set minCaps := stageMinCaps env (early ++ [last]) env.ctxs .empty
    have earlyBudgets : (largestBudgets env (early ++ [last]) env.ctxs).dropLast =
        early.map fun stage => minCaps.getD stage.stageId 0 := by
      rw [← budgets, List.map_append, List.map_singleton, List.dropLast_concat]
    rw [earlyBudgets]
    have ids : (early ++ [last]).map Stage.stageId = early.map Stage.stageId ++ [last.stageId] := by
      simp
    rw [ids] at distinct ⊢
    have caps := assignedCaps_append kv.capacity minCaps last.stageId (early.map Stage.stageId) 0
    have given := registerStages_capacityOf minCaps
      (assignedCaps kv.capacity minCaps (early.map Stage.stageId ++ [last.stageId]) 0) kv positive
      (by rwa [assignedCaps_ids])
    rw [caps] at given ⊢
    simp only [intendedCapacities, List.map_append, List.map_map, List.map_singleton]
    congr 1
    · apply List.map_congr_left
      intro stage member
      have own := given (stage.stageId, minCaps.getD stage.stageId 0)
        (List.mem_append_left _ (by simpa using ⟨stage, member, rfl, rfl⟩))
      simpa using own
    · have own := given (last.stageId, _) (List.mem_append_right _ (List.mem_singleton_self _))
      simpa [Function.comp_def] using own

/-! ## Planning -/

/-- Every segment of the plan with several stages has what planning intends for it. -/
structure Funded (env : BuildEnv α) (kv : KVMemoryManager) (st : BuildState α) : Prop where
  device : kv.SameDevice st.kv
  plan : ∀ stages, .segment stages ∈ st.plan → 2 ≤ stages.length →
    (stages.map fun stage => st.kv.capacityOf stage.stageId) =
      intendedCapacities kv (largestBudgets env stages env.ctxs).dropLast

section Funded

variable {env : BuildEnv α} {kv : KVMemoryManager} {P : TupleOp α → Prop} {st st' : BuildState α}

theorem KVMemoryManager.SameDevice.intendedCapacities {kv kv' : KVMemoryManager}
    (same : kv.SameDevice kv') (early : List Int) :
    intendedCapacities kv' early = Query.intendedCapacities kv early := by
  simp only [Query.intendedCapacities, same.1, same.2]

theorem Funded.emitStage (funded : Funded env kv st) : Funded env kv (Query.emitStage st) := by
  unfold Query.emitStage
  split
  · exact funded
  · exact ⟨funded.device, funded.plan⟩

theorem Numbered.fresh (numbered : Numbered kv P st) :
    (st.currentSegment.map Stage.stageId).Nodup ∧
      ∀ id ∈ planIds st.plan, id ∉ st.currentSegment.map Stage.stageId := by
  obtain ⟨n, -, ids⟩ := numbered.ids
  have distinct : (planIds st.plan ++ st.currentSegment.map Stage.stageId).Nodup := by
    rw [ids]
    exact List.nodup_range'
  rw [List.nodup_append] at distinct
  exact ⟨distinct.2.1, fun id old new => distinct.2.2 id old id new rfl⟩

theorem Funded.flushSegment (positive : 0 < kv.capacity) (numbered : Numbered kv P st)
    (funded : Funded env kv st) (flushes : Query.flushSegment env st = .ok st') :
    Funded env kv st' := by
  obtain ⟨-, rfl⟩ | ⟨registered, registers, rfl⟩ := flushSegment_cases flushes
  · exact funded
  · obtain ⟨distinct, fresh⟩ := numbered.fresh
    have device := registerSegment_device registers
    refine ⟨⟨device.1.trans funded.device.1, device.2.trans funded.device.2⟩, ?_⟩
    intro stages member several
    rcases List.mem_append.mp member with old | new
    · rw [← funded.plan stages old several]
      apply List.map_congr_left
      intro stage isStage
      apply registerSegment_outside registers
      apply fresh
      exact List.mem_flatMap.mpr ⟨_, old, List.mem_map_of_mem isStage⟩
    · cases List.mem_singleton.mp new
      rw [← funded.device.intendedCapacities]
      apply registerSegment_capacities _ distinct several registers
      rw [funded.device.1]
      exact positive

theorem Funded.item (funded : Funded env kv st) {item : PlanItem α}
    (isItem : ∀ stages, item ≠ .segment stages) :
    Funded env kv { st with plan := st.plan ++ [item] } := by
  refine ⟨funded.device, ?_⟩
  intro stages member several
  rcases List.mem_append.mp member with old | new
  · exact funded.plan stages old several
  · exact absurd (List.mem_singleton.mp new).symm (isItem stages)

theorem Funded.buildOperator (positive : 0 < kv.capacity) {op : BaseOp α}
    (numbered : Numbered kv P st) (funded : Funded env kv st)
    (builds : Query.buildOperator env st op = .ok st') : Funded env kv st' := by
  have emitted := numbered_emitStage numbered
  cases op with
  | tuple op =>
    cases builds
    exact ⟨funded.device, funded.plan⟩
  | join op =>
    simp only [Query.buildOperator] at builds
    split at builds
    · obtain ⟨flushed, flushes, same⟩ := bind_eq_ok.mp builds
      cases same
      exact (funded.emitStage.flushSegment positive emitted flushes).item
        (fun _ same => by cases same)
    · cases builds
      exact ⟨funded.emitStage.device, funded.emitStage.plan⟩
  | blocking op =>
    simp only [Query.buildOperator] at builds
    obtain ⟨flushed, flushes, same⟩ := bind_eq_ok.mp builds
    cases same
    exact (funded.emitStage.flushSegment positive emitted flushes).item
      (fun _ same => by cases same)

end Funded

theorem build_funded {operators : List (BaseOp α)} {plan : List (PlanItem α)}
    (positive : 0 < kv.capacity) (built : build env kv operators = .ok (plan, kv'))
    {stages : List (Stage α)} (planned : .segment stages ∈ plan) (several : 2 ≤ stages.length) :
    (stages.map fun stage => kv'.capacityOf stage.stageId) =
      intendedCapacities kv (largestBudgets env stages env.ctxs).dropLast := by
  have step : ∀ op ∈ operators, ∀ st : BuildState α,
      Numbered kv (fun _ => True) st ∧ Funded env kv st →
        Gives (fun st => Numbered kv (fun _ => True) st ∧ Funded env kv st)
          (buildOperator env st op) := by
    intro op _ st before
    cases builds : buildOperator env st op with
    | error error => exact trivial
    | ok st' =>
      exact ⟨(buildOperator_numbered [] before.1 (fun _ _ => trivial) builds).1,
        before.2.buildOperator positive before.1 builds⟩
  have initial : Funded env kv (BuildState.init kv) :=
    ⟨⟨rfl, rfl⟩, fun _ member => nomatch member⟩
  have loop := Meets.foldlM operators (BuildState.init kv) step ⟨numbered_init kv _, initial⟩
  obtain ⟨st, final, folded, flushes, rfl, rfl⟩ := build_eq_ok built
  obtain ⟨numbered, funded⟩ := loop.ok folded
  have closed := funded.emitStage.flushSegment positive (numbered_emitStage numbered) flushes
  exact closed.plan stages planned several

/-- The stages of a planned segment get at most the capacity together exactly when every stage
but the last needs at least the bytes of one token and these needs leave as much for the last. -/
theorem planned_capacity_le_iff (env : BuildEnv α) (kv kv' : KVMemoryManager)
    (operators : List (BaseOp α)) (plan : List (PlanItem α)) (stages : List (Stage α))
    (capacityPos : 0 < kv.capacity) (bytesPos : 0 < kv.bytesPerToken)
    (built : build env kv operators = .ok (plan, kv')) (planned : .segment stages ∈ plan)
    (several : 2 ≤ stages.length) :
    (stages.map fun stage => kv'.capacityOf stage.stageId).sum ≤ kv.capacity ↔
      (∀ budget ∈ (largestBudgets env stages env.ctxs).dropLast,
        (kv.bytesPerToken : Int) ≤ budget) ∧
      (largestBudgets env stages env.ctxs).dropLast.sum + kv.bytesPerToken ≤ kv.capacity := by
  rw [build_funded capacityPos built planned several]
  set early := (largestBudgets env stages env.ctxs).dropLast with isEarly
  have nonempty : early ≠ [] := by
    intro none
    have size := congrArg List.length none
    rw [isEarly, List.length_dropLast, length_largestBudgets, List.length_nil] at size
    omega
  have sum : (intendedCapacities kv early).sum =
      (((early.map (clamp kv.bytesPerToken kv.capacity)).sum +
        clamp kv.bytesPerToken kv.capacity (kv.capacity - early.sum) : Int) : ℚ) := by
    simp [intendedCapacities, List.sum_append, Function.comp_def, List.map_map]
  have bytesPos' : 0 < (kv.bytesPerToken : Int) := by exact_mod_cast bytesPos
  rw [sum, Int.cast_le]
  exact sum_clamp_le_iff bytesPos' capacityPos early nonempty

/-- The plan is one segment of two stages that get `total` bytes together. -/
def onePlannedPair (total : ℚ) : List (PlanItem Unit) × KVMemoryManager → Bool
  | ([.segment stages], kv) =>
      stages.length = 2 ∧ (stages.map fun stage => kv.capacityOf stage.stageId).sum = total
  | _ => false

theorem onePlannedPair_spec {total : ℚ} {plan : List (PlanItem Unit)} {kv : KVMemoryManager}
    (isPair : onePlannedPair total (plan, kv) = true) :
    ∃ stages, .segment stages ∈ plan ∧ 2 ≤ stages.length ∧
      (stages.map fun stage => kv.capacityOf stage.stageId).sum = total := by
  unfold onePlannedPair at isPair
  split at isPair
  · rename_i stages kv same
    cases same
    obtain ⟨two, sum⟩ := of_decide_eq_true isPair
    exact ⟨stages, List.mem_singleton_self _, two.ge, sum⟩
  · cases isPair

theorem planned_capacity_hundred :
    ∃ plan kv' stages, build oneContext (.init 100 1) twoStages = .ok (plan, kv') ∧
      .segment stages ∈ plan ∧
      (stages.map fun stage => kv'.capacityOf stage.stageId).sum = 100 ∧
      ((stages.map fun stage => kv'.capacityOf stage.stageId).sum ≤
          ((init 100 1).capacity : ℚ) ↔
        (∀ budget ∈ (largestBudgets oneContext stages oneContext.ctxs).dropLast,
          ((init 100 1).bytesPerToken : Int) ≤ budget) ∧
        (largestBudgets oneContext stages oneContext.ctxs).dropLast.sum +
          (init 100 1).bytesPerToken ≤ (init 100 1).capacity) := by
  obtain ⟨⟨plan, kv'⟩, built, isPair⟩ : ∃ result, build oneContext (.init 100 1) twoStages =
      .ok result ∧ onePlannedPair 100 result = true := by
    decide +kernel
  obtain ⟨stages, planned, several, sum⟩ := onePlannedPair_spec isPair
  exact ⟨plan, kv', stages, built, planned, sum,
    planned_capacity_le_iff oneContext (.init 100 1) kv' twoStages plan stages (by decide)
      (by decide) built planned several⟩

/-- A first stage that needs three of four bytes leaves one, but the last stage gets three. -/
theorem planned_capacity_exceeds :
    ∃ plan kv' stages, build oneContext (.init 4 3) twoStages = .ok (plan, kv') ∧
      .segment stages ∈ plan ∧ 2 ≤ stages.length ∧
      ((init 4 3).capacity : ℚ) <
        (stages.map fun stage => kv'.capacityOf stage.stageId).sum := by
  obtain ⟨⟨plan, kv'⟩, built, isPair⟩ : ∃ result, build oneContext (.init 4 3) twoStages =
      .ok result ∧ onePlannedPair 6 result = true := by
    decide +kernel
  obtain ⟨stages, planned, several, sum⟩ := onePlannedPair_spec isPair
  refine ⟨plan, kv', stages, built, planned, several, ?_⟩
  rw [sum]
  decide +kernel

end Kalypso.Query
