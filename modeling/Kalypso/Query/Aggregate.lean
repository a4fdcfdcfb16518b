import Kalypso.Query.Awaiting
import Mathlib.Data.List.Perm.Basic
import Mathlib.Data.List.Flatten

/-!
# Semantic aggregation

`SemAgg`: rounds that cut the working set into chunks by token length, reduce the chunks of several
contexts as tasks of the blocking executor and pass the others through.

What the model answers to a reduce call may depend on the round and on the place of the task.
-/

set_option autoImplicit false

namespace Kalypso.Query

open Kalypso.Lib

variable {C W : Type}

structure SemAgg (C : Type) where
  instructionOverhead : Nat
  perDocOverhead : Nat
  maxTokens : Nat := 8192
  tokenLength : C → Nat
  /-- the length of the prompt of a chunk -/
  promptTokenLen : List C → Nat
  bytesPerToken : Nat
  concurrency : Nat := 8
  concurrency_pos : 0 < concurrency := by decide

/-! ## Chunks -/

structure Chunking (C : Type) where
  contextChunks : List (List C)
  currentChunk : List C
  currentChunkTokens : Nat

namespace Chunking

def chunks (state : Chunking C) : List (List C) :=
  if state.currentChunk = [] then state.contextChunks
  else state.contextChunks ++ [state.currentChunk]

def items (state : Chunking C) : List C := state.contextChunks.flatten ++ state.currentChunk

theorem chunks_flatten (state : Chunking C) : state.chunks.flatten = state.items := by
  unfold chunks items
  split
  · rename_i empty
    rw [empty, List.append_nil]
  · simp

theorem ne_nil_of_mem_chunks {state : Chunking C}
    (closed : ∀ chunk ∈ state.contextChunks, chunk ≠ []) : ∀ chunk ∈ state.chunks, chunk ≠ [] := by
  intro chunk member
  unfold chunks at member
  split at member
  · exact closed chunk member
  · rename_i nonempty
    rcases List.mem_append.mp member with old | last
    · exact closed chunk old
    · rw [List.mem_singleton.mp last]
      exact nonempty

end Chunking

namespace SemAgg

variable (agg : SemAgg C)

def addItem (state : Chunking C) (ctx : C) : Chunking C :=
  let chunkItemTokens := agg.tokenLength ctx + agg.perDocOverhead
  if state.currentChunk ≠ [] ∧ agg.maxTokens < state.currentChunkTokens + chunkItemTokens then
    ⟨state.contextChunks ++ [state.currentChunk], [ctx],
      agg.instructionOverhead + chunkItemTokens⟩
  else
    ⟨state.contextChunks, state.currentChunk ++ [ctx],
      state.currentChunkTokens + chunkItemTokens⟩

def chunkByTokens (ctxs : List C) : List (List C) :=
  (ctxs.foldl agg.addItem ⟨[], [], agg.instructionOverhead⟩).chunks

theorem addItem_items (state : Chunking C) (ctx : C) :
    (agg.addItem state ctx).items = state.items ++ [ctx] := by
  simp only [addItem, Chunking.items]
  split
  · simp
  · simp

theorem addItem_closed {state : Chunking C} (ctx : C)
    (closed : ∀ chunk ∈ state.contextChunks, chunk ≠ []) :
    ∀ chunk ∈ (agg.addItem state ctx).contextChunks, chunk ≠ [] := by
  intro chunk member
  simp only [addItem] at member
  split at member
  · rename_i full
    rcases List.mem_append.mp member with old | last
    · exact closed chunk old
    · rw [List.mem_singleton.mp last]
      exact full.1
  · exact closed chunk member

theorem foldl_addItem (ctxs : List C) : ∀ state : Chunking C,
    (∀ chunk ∈ state.contextChunks, chunk ≠ []) →
      (ctxs.foldl agg.addItem state).items = state.items ++ ctxs ∧
        ∀ chunk ∈ (ctxs.foldl agg.addItem state).contextChunks, chunk ≠ [] := by
  induction ctxs with
  | nil =>
    intro state closed
    exact ⟨(List.append_nil _).symm, closed⟩
  | cons ctx ctxs ih =>
    intro state closed
    obtain ⟨listed, stillClosed⟩ := ih (agg.addItem state ctx) (agg.addItem_closed ctx closed)
    refine ⟨?_, stillClosed⟩
    rw [List.foldl_cons, listed, addItem_items, List.append_assoc, List.singleton_append]

/-- Every context is in one chunk, and no chunk is empty. -/
theorem chunkByTokens_spec (ctxs : List C) :
    (agg.chunkByTokens ctxs).flatten = ctxs ∧ ∀ chunk ∈ agg.chunkByTokens ctxs, chunk ≠ [] := by
  have loop := agg.foldl_addItem ctxs ⟨[], [], agg.instructionOverhead⟩ (by simp)
  refine ⟨?_, Chunking.ne_nil_of_mem_chunks loop.2⟩
  rw [chunkByTokens, Chunking.chunks_flatten, loop.1]
  rfl

def reducible (chunks : List (List W)) : List (List W) := chunks.filter (1 < ·.length)

def passthrough (chunks : List (List W)) : List W :=
  (chunks.filter (·.length = 1)).filterMap List.head?

theorem passthrough_append_reducible_perm {chunks : List (List W)}
    (nonempty : ∀ chunk ∈ chunks, chunk ≠ []) :
    (passthrough chunks ++ (reducible chunks).flatten).Perm chunks.flatten := by
  induction chunks with
  | nil => exact .refl _
  | cons chunk chunks ih =>
    have rest := ih fun other member => nonempty other (List.mem_cons_of_mem _ member)
    match chunk with
    | [] => exact absurd rfl (nonempty [] List.mem_cons_self)
    | [item] =>
      have single : passthrough ([item] :: chunks) = item :: passthrough chunks := by
        simp [passthrough]
      have same : reducible ([item] :: chunks) = reducible chunks := by
        simp [reducible]
      rw [single, same, List.flatten_cons]
      exact rest.cons item
    | first :: second :: others =>
      have same : passthrough ((first :: second :: others) :: chunks) =
          passthrough chunks := by
        simp [passthrough]
      have several : reducible ((first :: second :: others) :: chunks) =
          (first :: second :: others) :: reducible chunks := by
        simp [reducible]
      rw [same, several, List.flatten_cons, List.flatten_cons]
      exact (List.perm_append_comm_assoc ..).trans (rest.append_left _)

theorem two_mul_length_reducible_le (chunks : List (List W)) :
    2 * (reducible chunks).length ≤ (reducible chunks).flatten.length := by
  induction chunks with
  | nil => exact Nat.le_refl _
  | cons chunk chunks ih =>
    by_cases several : 1 < chunk.length
    · have kept : reducible (chunk :: chunks) = chunk :: reducible chunks := by
        simp [reducible, several]
      rw [kept, List.length_cons, List.flatten_cons, List.length_append]
      omega
    · have dropped : reducible (chunk :: chunks) = reducible chunks := by
        simp [reducible, several]
      rw [dropped]
      exact ih

/-! ## Rounds -/

variable (answer : Nat → Nat → List C → C)

def budget (chunk : List C) : Nat := (agg.promptTokenLen chunk + agg.maxTokens) * agg.bytesPerToken

/-- The reduce calls of a round, each with its place. -/
def reducers (round concurrency : Nat) (positive : 0 < concurrency) (chunks : List (List C)) :
    TaskBatch (List C × Nat) C where
  seeds := chunks.zipIdx
  budget seed := agg.budget seed.1
  result seed := answer round seed.2 seed.1
  concurrency := concurrency
  concurrency_pos := positive

theorem length_completion {round concurrency : Nat} {positive : 0 < concurrency}
    {chunks : List (List C)}
    (reduced : (agg.reducers answer round concurrency positive chunks).Completion) :
    reduced.1.length = chunks.length := by
  rw [reduced.2.length_eq, List.length_map]
  exact List.length_zipIdx

theorem length_round_lt {workingSet reduced : List C}
    (someChunk : reducible (agg.chunkByTokens workingSet) ≠ [])
    (length : reduced.length = (reducible (agg.chunkByTokens workingSet)).length) :
    (passthrough (agg.chunkByTokens workingSet) ++ reduced).length < workingSet.length := by
  obtain ⟨flat, nonempty⟩ := agg.chunkByTokens_spec workingSet
  have total := (passthrough_append_reducible_perm nonempty).length_eq
  have atLeast := two_mul_length_reducible_le (agg.chunkByTokens workingSet)
  have positive := List.length_pos_iff.mpr someChunk
  rw [flat, List.length_append] at total
  rw [List.length_append, length]
  omega

/-- The loop of `__call__`. -/
def reduceRounds (round : Nat) (workingSet : List C) : Coroutine (List C × Nat) C (List C) :=
  if 1 < workingSet.length then
    let chunks := agg.chunkByTokens workingSet
    if reducible chunks ≠ [] then
      .await (agg.reducers answer round agg.concurrency agg.concurrency_pos (reducible chunks))
        fun reduced => reduceRounds (round + 1) (passthrough chunks ++ reduced.1)
    else
      .await (agg.reducers answer round 1 Nat.one_pos [workingSet])
        fun reduced => reduceRounds (round + 1) reduced.1
  else .ret workingSet
termination_by workingSet.length
decreasing_by
  · exact agg.length_round_lt ‹_› (agg.length_completion answer reduced)
  · rw [agg.length_completion answer reduced]
    assumption

end SemAgg

def semAgg (agg : SemAgg C) (answer : Nat → Nat → List C → C) (ctxs : List C) :
    Coroutine (List C × Nat) C (List C) :=
  if ctxs = [] then .ret [] else agg.reduceRounds answer 0 ctxs

/-! ## The tree of reduce calls -/

/-- A context that a call of `_reduce_chunk` has made stands above those of its chunk. -/
inductive ReduceTree (C : Type) where
  | leaf (ctx : C)
  | reduce (children : List (ReduceTree C)) (result : C)

namespace ReduceTree

def value : ReduceTree C → C
  | leaf ctx => ctx
  | reduce _ result => result

mutual

def leaves : ReduceTree C → List C
  | leaf ctx => [ctx]
  | reduce children _ => leavesOf children

def leavesOf : List (ReduceTree C) → List C
  | [] => []
  | tree :: trees => tree.leaves ++ leavesOf trees

end

theorem leavesOf_eq (trees : List (ReduceTree C)) : leavesOf trees = trees.flatMap leaves := by
  induction trees with
  | nil => rw [leavesOf, List.flatMap_nil]
  | cons tree trees ih => rw [leavesOf, ih, List.flatMap_cons]

/-- Every inner context is the answer to a reduce call for the contexts below it. -/
inductive Produced (answer : Nat → Nat → List C → C) : ReduceTree C → Prop where
  | leaf (ctx : C) : Produced answer (.leaf ctx)
  | reduce (round task : Nat) (children : List (ReduceTree C))
      (below : ∀ child ∈ children, Produced answer child) :
      Produced answer (.reduce children (answer round task (children.map value)))

/-- The contexts of a working set stand for trees that have the given contexts as leaves. -/
def Stands (answer : Nat → Nat → List C → C) (ctxs workingSet : List C) : Prop :=
  ∃ trees : List (ReduceTree C), trees.map value = workingSet ∧
    (∀ tree ∈ trees, tree.Produced answer) ∧ (trees.flatMap leaves).Perm ctxs

variable {answer : Nat → Nat → List C → C}

theorem stands_leaves (answer : Nat → Nat → List C → C) (ctxs : List C) :
    Stands answer ctxs ctxs := by
  refine ⟨ctxs.map .leaf, by simp [Function.comp_def, value], ?_,
    by simp [leaves, List.flatMap_map]⟩
  intro tree member
  obtain ⟨ctx, -, rfl⟩ := List.mem_map.mp member
  exact .leaf ctx

theorem exists_chunks {chunks : List (List C)} : ∀ {trees : List (ReduceTree C)},
    trees.map value = chunks.flatten →
      ∃ parts : List (List (ReduceTree C)), parts.map (List.map value) = chunks ∧
        parts.flatten = trees := by
  induction chunks with
  | nil =>
    intro trees same
    exact ⟨[], rfl, (List.map_eq_nil_iff.mp same).symm⟩
  | cons chunk chunks ih =>
    intro trees same
    rw [List.flatten_cons] at same
    obtain ⟨first, rest, rfl, rfl, later⟩ := List.map_eq_append_iff.mp same
    obtain ⟨parts, rfl, rfl⟩ := ih later
    exact ⟨first :: parts, rfl, rfl⟩

theorem exists_perm_of_map {results : List C} {trees : List (ReduceTree C)}
    (same : results.Perm (trees.map value)) :
    ∃ completed : List (ReduceTree C), completed.Perm trees ∧ completed.map value = results := by
  have values : List.Forall₂ (fun result tree => result = value tree) (trees.map value) trees := by
    rw [List.forall₂_map_left_iff]
    exact List.forall₂_same.mpr fun _ _ => rfl
  obtain ⟨completed, matched, perm⟩ := List.perm_comp_forall₂ same values
  refine ⟨completed, perm, ?_⟩
  clear same values perm
  induction matched with
  | nil => rfl
  | cons found _ ih => rw [List.map_cons, ih, found]

/-- The results of the reduce calls for chunks of trees stand for trees above these. -/
theorem exists_reduced {round : Nat} {parts : List (List (ReduceTree C))} {results : List C}
    (produced : ∀ tree ∈ parts.flatten, tree.Produced answer)
    (completed : results.Perm
      ((parts.map (List.map value)).zipIdx.map fun seed => answer round seed.2 seed.1)) :
    ∃ trees : List (ReduceTree C), trees.map value = results ∧
      (∀ tree ∈ trees, tree.Produced answer) ∧
      (trees.flatMap leaves).Perm (parts.flatten.flatMap leaves) := by
  let reduce : List (ReduceTree C) × Nat → ReduceTree C := fun seed =>
    .reduce seed.1 (answer round seed.2 (seed.1.map value))
  have listed : ((parts.map (List.map value)).zipIdx.map fun seed => answer round seed.2 seed.1) =
      (parts.zipIdx.map reduce).map value := by
    rw [List.zipIdx_map, List.map_map, List.map_map]
    rfl
  rw [listed] at completed
  obtain ⟨trees, perm, values⟩ := exists_perm_of_map completed
  refine ⟨trees, values, ?_, (perm.flatMap_right leaves).trans (.of_eq ?_)⟩
  · intro tree member
    obtain ⟨⟨part, task⟩, isSeed, rfl⟩ := List.mem_map.mp (perm.mem_iff.mp member)
    have isPart : part ∈ parts := by
      rw [← List.zipIdx_map_fst 0 parts]
      exact List.mem_map_of_mem isSeed
    refine .reduce round task part fun child inPart => ?_
    exact produced child (List.mem_flatten_of_mem isPart inPart)
  · have below : ∀ seed, (reduce seed).leaves = seed.1.flatMap leaves := by
      intro seed
      rw [leaves, leavesOf_eq]
    rw [List.flatMap_map, List.flatten_eq_flatMap, List.flatMap_assoc,
      ← List.zipIdx_map_fst 0 parts, List.flatMap_map, List.zipIdx_map_fst]
    simp [below]

end ReduceTree

namespace SemAgg

open ReduceTree

variable (agg : SemAgg C) {answer : Nat → Nat → List C → C} {ctxs workingSet : List C}

theorem reducible_map (parts : List (List (ReduceTree C))) :
    reducible (parts.map (List.map value)) = (reducible parts).map (List.map value) := by
  unfold reducible
  rw [List.filter_map]
  simp [Function.comp_def]

theorem passthrough_map (parts : List (List (ReduceTree C))) :
    passthrough (parts.map (List.map value)) = (passthrough parts).map value := by
  unfold passthrough
  rw [List.filter_map, List.filterMap_map, List.map_filterMap]
  simp [Function.comp_def]

theorem stands_round (stands : Stands answer ctxs workingSet) {round : Nat} {reduced : List C}
    (completed : reduced.Perm ((reducible (agg.chunkByTokens workingSet)).zipIdx.map
      fun seed => answer round seed.2 seed.1)) :
    Stands answer ctxs (passthrough (agg.chunkByTokens workingSet) ++ reduced) := by
  obtain ⟨trees, values, produced, leaves⟩ := stands
  obtain ⟨flat, nonempty⟩ := agg.chunkByTokens_spec workingSet
  obtain ⟨parts, chunked, rfl⟩ := exists_chunks (values.trans flat.symm)
  have someTree : ∀ part ∈ parts, part ≠ [] := by
    rintro part member rfl
    exact nonempty [] (chunked ▸ List.mem_map_of_mem member) rfl
  have split := passthrough_append_reducible_perm someTree
  rw [← chunked, reducible_map] at completed
  obtain ⟨above, aboveValues, aboveProduced, aboveLeaves⟩ := exists_reduced
    (fun tree member => produced tree (split.subset (List.mem_append_right _ member))) completed
  refine ⟨passthrough parts ++ above, ?_, ?_, ?_⟩
  · rw [List.map_append, aboveValues, ← passthrough_map, chunked]
  · intro tree member
    rcases List.mem_append.mp member with passed | reduced
    · exact produced tree (split.subset (List.mem_append_left _ passed))
    · exact aboveProduced tree reduced
  · rw [List.flatMap_append]
    refine (aboveLeaves.append_left _).trans ?_
    rw [← List.flatMap_append]
    exact (split.flatMap_right _).trans leaves

theorem stands_whole (stands : Stands answer ctxs workingSet) {round : Nat} {reduced : List C}
    (completed : reduced.Perm ([workingSet].zipIdx.map fun seed => answer round seed.2 seed.1)) :
    Stands answer ctxs reduced := by
  obtain ⟨trees, rfl, produced, leaves⟩ := stands
  have inOne : ∀ tree ∈ [trees].flatten, tree.Produced answer := by
    rwa [List.flatten_singleton]
  obtain ⟨above, values, aboveProduced, aboveLeaves⟩ := exists_reduced inOne completed
  rw [List.flatten_singleton] at aboveLeaves
  exact ⟨above, values, aboveProduced, aboveLeaves.trans leaves⟩

theorem reduceRounds_ensures (round : Nat) (workingSet : List C) (nonempty : workingSet ≠ [])
    (stands : Stands answer ctxs workingSet) :
    (agg.reduceRounds answer round workingSet).Ensures fun result =>
      ∃ tree : ReduceTree C, result = [tree.value] ∧ tree.Produced answer ∧
        tree.leaves.Perm ctxs := by
  induction round, workingSet using reduceRounds.induct agg answer with
  | case1 round workingSet several chunks someChunk ih =>
    rw [reduceRounds, if_pos several, if_pos someChunk]
    intro reduced
    refine ih reduced ?_ (agg.stands_round stands reduced.2)
    have length := agg.length_completion answer reduced
    rw [← List.length_pos_iff, List.length_append, length]
    exact Nat.add_pos_right _ (List.length_pos_iff.mpr someChunk)
  | case2 round workingSet several chunks noChunk ih =>
    rw [reduceRounds, if_pos several, if_neg noChunk]
    intro reduced
    refine ih reduced ?_ (stands_whole stands reduced.2)
    rw [← List.length_pos_iff, agg.length_completion answer reduced]
    exact Nat.one_pos
  | case3 round workingSet single =>
    rw [reduceRounds, if_neg single]
    obtain ⟨trees, rfl, produced, leaves⟩ := stands
    rw [List.length_map] at single
    obtain ⟨tree, rfl⟩ : ∃ tree, trees = [tree] := by
      have positive : trees ≠ [] := fun none => nonempty (by rw [none]; rfl)
      exact List.length_eq_one_iff.mp (by have := List.length_pos_iff.mpr positive; omega)
    refine ⟨tree, rfl, produced tree (List.mem_singleton.mpr rfl), ?_⟩
    rwa [List.flatMap_singleton] at leaves

theorem reduceRounds_fitting {capacity : Nat} (fits : ∀ chunk, agg.budget chunk ≤ capacity)
    (round : Nat) (workingSet : List C) :
    (agg.reduceRounds answer round workingSet).Fitting capacity := by
  induction round, workingSet using reduceRounds.induct agg answer with
  | case1 round workingSet several chunks someChunk ih =>
    rw [reduceRounds, if_pos several, if_pos someChunk]
    exact ⟨fun seed _ => fits seed.1, ih⟩
  | case2 round workingSet several chunks noChunk ih =>
    rw [reduceRounds, if_pos several, if_neg noChunk]
    exact ⟨fun seed _ => fits seed.1, ih⟩
  | case3 round workingSet single =>
    rw [reduceRounds, if_neg single]
    trivial

end SemAgg

/-- Every run of the operator ends.  It returns one context, the root of a tree of reduce calls
whose leaves are the contexts that were given, each as often as there, exactly if every reduce call
of the run fits into the capacity. -/
theorem semAgg_consumes (agg : SemAgg C) (answer : Nat → Nat → List C → C) (capacity : Nat)
    (ctxs : List C) (nonempty : ctxs ≠ []) :
    (¬ ∃ states : Nat → AwaitState (List C × Nat) C (List C),
      states 0 = .active 0 (semAgg agg answer ctxs) ∧
      ∀ n, AwaitState.Follows capacity (states (n + 1)) (states n)) ∧
    ∀ ops s, Trace (AwaitStep capacity) (.active 0 (semAgg agg answer ctxs)) ops s →
      s.Final capacity →
      ((∃ result, s = .active 0 (.ret result) ∧ ∃ tree : ReduceTree C, result = [tree.value] ∧
          tree.Produced answer ∧ tree.leaves.Perm ctxs) ↔
        Trace (FittingStep capacity) (.active 0 (semAgg agg answer ctxs)) ops s) := by
  apply Coroutine.runs
  rw [semAgg, if_neg nonempty]
  exact agg.reduceRounds_ensures 0 ctxs nonempty (ReduceTree.stands_leaves answer ctxs)

/-- Two contexts of three tokens make a chunk; a reduce call needs thirteen bytes. -/
def pairsFit : SemAgg Nat where
  instructionOverhead := 1
  perDocOverhead := 1
  maxTokens := 10
  tokenLength := id
  promptTokenLen _ := 3
  bytesPerToken := 1

def oneToken : Nat → Nat → List Nat → Nat := fun _ _ _ => 1

/-- A run that reduces a chunk of two, passes the third context through and reduces again. -/
theorem semAgg_consumes_three :
    ∃ ops result, Trace (AwaitStep 13) (.active 0 (semAgg pairsFit oneToken [3, 3, 3])) ops
        (.active 0 (.ret result)) ∧
      ∃ tree : ReduceTree Nat, result = [tree.value] ∧ tree.Produced oneToken ∧
        tree.leaves.Perm [3, 3, 3] := by
  obtain ⟨ops, last, run, final⟩ :=
    exists_final ((semAgg pairsFit oneToken [3, 3, 3]).acc_active 13 0)
  have fitting : (semAgg pairsFit oneToken [3, 3, 3]).Fitting 13 :=
    pairsFit.reduceRounds_fitting (fun _ => Nat.le_refl 13) 0 [3, 3, 3]
  obtain ⟨result, rfl, tree⟩ :=
    ((semAgg_consumes pairsFit oneToken 13 [3, 3, 3] (by decide)).2 ops last run final).mpr
      (AwaitState.fittingRun_of_fitting run fitting)
  exact ⟨ops, result, run, tree⟩

/-- With one byte less the producer waits for the first reduce call, and no run returns. -/
theorem semAgg_never_returns :
    (∃ ops last, Trace (AwaitStep 12) (.active 0 (semAgg pairsFit oneToken [3, 3, 3])) ops last ∧
      last.Final 12) ∧
    ∀ ops last, Trace (AwaitStep 12) (.active 0 (semAgg pairsFit oneToken [3, 3, 3])) ops last →
      ∀ used result, last ≠ .active used (.ret result) := by
  refine ⟨exists_final ((semAgg pairsFit oneToken [3, 3, 3]).acc_active 12 0), ?_⟩
  have awaits : semAgg pairsFit oneToken [3, 3, 3] =
      .await (pairsFit.reducers oneToken 0 8 (by decide) [[3, 3]]) fun reduced =>
        pairsFit.reduceRounds oneToken 1 ([3] ++ reduced.1) := by
    rw [semAgg, if_neg (by decide), SemAgg.reduceRounds, if_pos (by decide), if_pos (by decide)]
    rfl
  rw [awaits]
  intro ops last run
  refine AwaitState.not_returned_of_large ?_ run
  intro fits
  exact absurd (fits ([3, 3], 0) (List.mem_singleton.mpr rfl)) (by decide)

end Kalypso.Query
