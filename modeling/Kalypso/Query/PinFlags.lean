import Kalypso.Query.Operators
import Kalypso.Query.Plan

/-!
# The pin and unpin flags of a plan

`parse_ops` ends with `apply_pin_unpin`: in a chain of tuple-independent operators that feeds a join
the first operator is to pin, and in the last chain of the query, if it has several operators, the
first is to pin and the last to unpin.  The scan looks at the behaviour of the operators only.

Every chain becomes one stage of the plan.  The stages are numbered from 1, so that the stage with
the number `n` runs the `n`-th chain.
-/

set_option autoImplicit false

namespace Kalypso.Query

open Kalypso.Lib

/-! ## Physical operators -/

/-- A product: the rows of the right side, for planning those that are taken instead.  The
contexts it makes carry no pin. -/
structure ProductOp where
  rows : SemContext TupleData → List TupleData
  indexed : Option (SemContext TupleData → List TupleData)

structure ReducerOp where
  call : List (SemContext TupleData) → List (SemContext TupleData)
  unpinned : ∀ ctxs, ∀ ctx ∈ call ctxs, ctx ∈ ctxs ∨ ctx.pinReqId = none

inductive PhysicalOp where
  | tuple (op : SemOperator)
  | join (op : ProductOp)
  | blocking (op : ReducerOp)

def unpinnedRows (rows : SemContext TupleData → List TupleData) (ctx : SemContext TupleData) :
    List (SemContext TupleData) :=
  (rows ctx).map fun data => ⟨data, none⟩

def ProductOp.toJoinOp (op : ProductOp) : JoinOp TupleData :=
  ⟨unpinnedRows op.rows, op.indexed.map unpinnedRows⟩

def SemOperator.reset (op : SemOperator) : SemOperator := { op with pin := false, unpin := false }

namespace PhysicalOp

def toBaseOp : PhysicalOp → BaseOp TupleData
  | .tuple op => .tuple op.toTupleOp
  | .join op => .join op.toJoinOp
  | .blocking op => .blocking ⟨op.call⟩

def behavior (op : PhysicalOp) : OpBehavior := op.toBaseOp.behavior

def reset : PhysicalOp → PhysicalOp
  | .tuple op => .tuple op.reset
  | op => op

end PhysicalOp

/-! ## `apply_pin_unpin` -/

def pinFirst : List SemOperator → List SemOperator
  | [] => []
  | first :: rest => { first with pin := true } :: rest

def unpinLast : List SemOperator → List SemOperator
  | [] => []
  | [last] => [{ last with unpin := true }]
  | op :: next :: rest => op :: unpinLast (next :: rest)

def finalizeChain (nextBehavior : Option OpBehavior) (chain : List SemOperator) :
    List SemOperator :=
  match nextBehavior with
  | some .join => pinFirst chain
  | none => if 1 < chain.length then unpinLast (pinFirst chain) else chain
  | some _ => chain

open PhysicalOp

def scanChains : List SemOperator → List PhysicalOp → List PhysicalOp
  | _, [] => []
  | chain, .tuple op :: rest =>
      match rest.head?.map behavior with
      | some .tupleIndependent => scanChains (chain ++ [op]) rest
      | nextBehavior =>
          (finalizeChain nextBehavior (chain ++ [op])).map .tuple ++ scanChains [] rest
  | _, .join op :: rest => .join op :: scanChains [] rest
  | _, .blocking op :: rest => .blocking op :: scanChains [] rest

def applyPinUnpin (virtualPinning : Bool) (ops : List PhysicalOp) : List PhysicalOp :=
  if virtualPinning then scanChains [] (ops.map .reset) else ops.map .reset

/-! ## Chains -/

def chainsFrom : List SemOperator → List PhysicalOp → List (List SemOperator)
  | chain, [] => if chain = [] then [] else [chain]
  | chain, .tuple op :: rest => chainsFrom (chain ++ [op]) rest
  | chain, .join _ :: rest => (if chain = [] then [] else [chain]) ++ chainsFrom [] rest
  | chain, .blocking _ :: rest => (if chain = [] then [] else [chain]) ++ chainsFrom [] rest

def chainOf (ops : List PhysicalOp) (stage : Stage TupleData) : List SemOperator :=
  (chainsFrom [] ops).getD (stage.stageId - 1) []

def lastChain : List SemOperator → List PhysicalOp → List SemOperator
  | chain, [] => chain
  | chain, .tuple op :: rest => lastChain (chain ++ [op]) rest
  | _, .join _ :: rest => lastChain [] rest
  | _, .blocking _ :: rest => lastChain [] rest

/-- An `IndexedSearch` is to give back the pin that another operator of the chain has taken. -/
def EndsInSearch (chain : List SemOperator) : Prop :=
  ∃ first middle last, chain = first :: (middle ++ [last]) ∧
    (first.opClass ≠ .indexedSearch ∧ ∀ thresholds, first.opClass ≠ .icpFilter thresholds) ∧
    last.opClass = .indexedSearch

def FirstPins (chain : List SemOperator) : Prop := ∀ op ∈ chain.tail, op.pin = false

def Settles (chain : List SemOperator) : Prop :=
  (∀ op ∈ chain, ¬ op.TakesPin) ∨
    ∃ front last, chain = front ++ [last] ∧ last.unpin = true ∧ last.opClass ≠ .indexedSearch

def Flagged : List SemOperator → List PhysicalOp → Prop
  | chain, [] => FirstPins chain ∧ Settles chain
  | chain, .tuple op :: rest => Flagged (chain ++ [op]) rest
  | chain, .join _ :: rest => FirstPins chain ∧ Flagged [] rest
  | chain, .blocking _ :: rest => (FirstPins chain ∧ Settles chain) ∧ Flagged [] rest

/-! ## The scan sets flags that fit -/

def Plain (chain : List SemOperator) : Prop := ∀ op ∈ chain, op.pin = false

variable {chain : List SemOperator}

theorem Plain.firstPins (plain : Plain chain) : FirstPins chain :=
  fun op member => plain op (List.mem_of_mem_tail member)

theorem Plain.settles (plain : Plain chain) : Settles chain := by
  left
  exact fun op member => SemOperator.not_takesPin (plain op member)

theorem Plain.append (plain : Plain chain) {op : SemOperator} (noPin : op.pin = false) :
    Plain (chain ++ [op]) := by
  intro other member
  rcases List.mem_append.mp member with old | new
  · exact plain other old
  · rw [List.mem_singleton.mp new]
    exact noPin

theorem firstPins_pinFirst (plain : Plain chain) : FirstPins (pinFirst chain) := by
  cases chain with
  | nil => exact plain.firstPins
  | cons first rest => exact fun op member => plain op (List.mem_cons_of_mem _ member)

theorem unpinLast_append (front : List SemOperator) (last : SemOperator) :
    unpinLast (front ++ [last]) = front ++ [{ last with unpin := true }] := by
  induction front with
  | nil => rfl
  | cons op front ih =>
    cases front with
    | nil => rfl
    | cons next front => exact congrArg (op :: ·) ih

theorem finalizeChain_several (plain : Plain chain) (several : 1 < chain.length) :
    ∃ first middle last, chain = first :: (middle ++ [last]) ∧
      finalizeChain none chain =
        { first with pin := true } :: (middle ++ [{ last with unpin := true }]) ∧
      FirstPins (finalizeChain none chain) := by
  obtain ⟨first, rest, rfl⟩ := List.exists_cons_of_length_pos (Nat.zero_lt_of_lt several)
  rw [List.length_cons] at several
  have nonempty : rest ≠ [] := List.length_pos_iff.mp (by omega)
  obtain ⟨middle, last, rfl⟩ : ∃ middle last, rest = middle ++ [last] :=
    ⟨_, _, (List.dropLast_append_getLast nonempty).symm⟩
  have flags : finalizeChain none (first :: (middle ++ [last])) =
      { first with pin := true } :: (middle ++ [{ last with unpin := true }]) := by
    rw [finalizeChain, if_pos (by simp), pinFirst, ← List.cons_append,
      unpinLast_append, List.cons_append]
  refine ⟨first, middle, last, rfl, flags, ?_⟩
  rw [flags]
  intro op member
  rcases List.mem_append.mp member with inMiddle | isLast
  · exact plain op (List.mem_cons_of_mem _ (List.mem_append_left _ inMiddle))
  · rw [List.mem_singleton.mp isLast]
    exact plain last (by simp)

theorem finalizeChain_end (plain : Plain chain) (heeded : ¬ EndsInSearch chain) :
    FirstPins (finalizeChain none chain) ∧ Settles (finalizeChain none chain) := by
  by_cases several : 1 < chain.length
  · obtain ⟨first, middle, last, rfl, flags, firstPins⟩ := finalizeChain_several plain several
    refine ⟨firstPins, ?_⟩
    rw [flags] at firstPins ⊢
    by_cases search : last.opClass = .indexedSearch
    · left
      intro op member takes
      rcases List.mem_cons.mp member with rfl | later
      · exact heeded ⟨first, middle, last, rfl, takes.2, search⟩
      · exact SemOperator.not_takesPin (firstPins op later) takes
    · right
      exact ⟨{ first with pin := true } :: middle, { last with unpin := true }, rfl, rfl, search⟩
  · rw [finalizeChain, if_neg several]
    exact ⟨plain.firstPins, plain.settles⟩

theorem flagged_append (first chain : List SemOperator) (rest : List PhysicalOp) :
    Flagged first (chain.map .tuple ++ rest) ↔ Flagged (first ++ chain) rest := by
  induction chain generalizing first with
  | nil => simp
  | cons op chain ih =>
    rw [List.map_cons, List.cons_append, Flagged, ih, List.append_assoc, List.singleton_append]

def PlainOps (ops : List PhysicalOp) : Prop := ∀ op, .tuple op ∈ ops → op.pin = false

theorem PlainOps.tail {op : PhysicalOp} {rest : List PhysicalOp} (plain : PlainOps (op :: rest)) :
    PlainOps rest :=
  fun other member => plain other (List.mem_cons_of_mem _ member)

theorem scanChains_boundary (chain : List SemOperator) (op : SemOperator) (rest : List PhysicalOp)
    (boundary : ∀ other, rest.head? ≠ some (.tuple other)) :
    scanChains chain (.tuple op :: rest) =
      (finalizeChain (rest.head?.map behavior) (chain ++ [op])).map .tuple ++
        scanChains [] rest := by
  cases rest with
  | nil => rfl
  | cons next rest =>
    cases next with
    | tuple other => exact absurd rfl (boundary other)
    | join other => rfl
    | blocking other => rfl

theorem flagged_scanChains (rest : List PhysicalOp) : ∀ chain : List SemOperator, Plain chain →
    PlainOps rest → ¬ EndsInSearch (lastChain chain rest) → Flagged [] (scanChains chain rest) := by
  have none : Plain [] := fun _ member => nomatch member
  induction rest with
  | nil =>
    intro chain _ _ _
    exact ⟨none.firstPins, none.settles⟩
  | cons head rest ih =>
    intro chain plain plainRest heeded
    cases head with
    | join op => exact ⟨none.firstPins, ih [] none plainRest.tail heeded⟩
    | blocking op => exact ⟨⟨none.firstPins, none.settles⟩, ih [] none plainRest.tail heeded⟩
    | tuple op =>
      have longer : Plain (chain ++ [op]) := plain.append (plainRest op List.mem_cons_self)
      cases rest with
      | nil =>
        rw [scanChains_boundary _ _ _ (by simp), flagged_append]
        exact finalizeChain_end longer heeded
      | cons next rest =>
        cases next with
        | tuple other => exact ih (chain ++ [op]) longer plainRest.tail heeded
        | join other =>
          have later := ih [] none plainRest.tail heeded
          rw [scanChains_boundary _ _ _ (by simp), flagged_append]
          exact ⟨firstPins_pinFirst longer, later.2⟩
        | blocking other =>
          have later := ih [] none plainRest.tail heeded
          rw [scanChains_boundary _ _ _ (by simp), flagged_append]
          exact ⟨⟨longer.firstPins, longer.settles⟩, later.2⟩

theorem flagged_of_plain (rest : List PhysicalOp) : ∀ chain : List SemOperator, Plain chain →
    PlainOps rest → Flagged chain rest := by
  have none : Plain [] := fun _ member => nomatch member
  induction rest with
  | nil =>
    intro chain plain _
    exact ⟨plain.firstPins, plain.settles⟩
  | cons head rest ih =>
    intro chain plain plainRest
    cases head with
    | tuple op =>
      exact ih _ (plain.append (plainRest op List.mem_cons_self)) plainRest.tail
    | join op => exact ⟨plain.firstPins, ih [] none plainRest.tail⟩
    | blocking op => exact ⟨⟨plain.firstPins, plain.settles⟩, ih [] none plainRest.tail⟩

theorem plainOps_reset (ops : List PhysicalOp) : PlainOps (ops.map .reset) := by
  intro op member
  obtain ⟨original, -, same⟩ := List.mem_map.mp member
  cases original with
  | tuple other =>
    cases same
    rfl
  | join other => cases same
  | blocking other => cases same

theorem lastChain_reset (ops : List PhysicalOp) : ∀ chain : List SemOperator,
    lastChain (chain.map .reset) (ops.map .reset) = (lastChain chain ops).map .reset := by
  induction ops with
  | nil => exact fun _ => rfl
  | cons head ops ih =>
    intro chain
    cases head with
    | tuple op =>
      have longer := ih (chain ++ [op])
      rw [List.map_append] at longer
      exact longer
    | join op => exact ih []
    | blocking op => exact ih []

theorem endsInSearch_of_reset (ends : EndsInSearch (chain.map .reset)) : EndsInSearch chain := by
  obtain ⟨first, middle, last, same, pins, search⟩ := ends
  obtain ⟨first', rest, rfl, rfl, isRest⟩ := List.map_eq_cons_iff.mp same
  obtain ⟨middle', last', rfl, rfl, isLast⟩ := List.map_eq_append_iff.mp isRest
  obtain ⟨last'', rfl, rfl⟩ := List.map_eq_singleton_iff.mp isLast
  exact ⟨first', middle', last'', rfl, pins, search⟩

/-- The flags that `apply_pin_unpin` sets fit, unless the last chain ends in a search. -/
theorem applyPinUnpin_flagged (virtualPinning : Bool) (ops : List PhysicalOp)
    (heeded : virtualPinning = true → ¬ EndsInSearch (lastChain [] ops)) :
    Flagged [] (applyPinUnpin virtualPinning ops) := by
  have none : Plain [] := fun _ member => nomatch member
  unfold applyPinUnpin
  split
  · rename_i pinning
    refine flagged_scanChains _ [] none (plainOps_reset ops) ?_
    intro ends
    refine heeded pinning (endsInSearch_of_reset ?_)
    rwa [← lastChain_reset]
  · exact flagged_of_plain _ [] none (plainOps_reset ops)

/-! ## Maximal runs of tuple-independent operators -/

structure MaximalRun (ops before : List PhysicalOp) (run : List SemOperator)
    (after : List PhysicalOp) : Prop where
  split : ops = before ++ (run.map .tuple ++ after)
  nonempty : run ≠ []
  start : ∀ op, before.getLast? ≠ some (.tuple op)
  stop : ∀ op, after.head? ≠ some (.tuple op)

/-- The flags of a run that an operator of the behaviour `next` follows. -/
structure RunFlags (next : Option OpBehavior) (run : List SemOperator) : Prop where
  exclusive : ∀ op ∈ run, ¬ (op.pin = true ∧ op.unpin = true)
  firstPins : FirstPins run
  pins : (∃ first ∈ run.head?, first.pin = true) ↔
    next = some .join ∨ next = none ∧ 2 ≤ run.length
  lastUnpins : ∀ op ∈ run.dropLast, op.unpin = false
  returns : ∀ op ∈ run, op.unpin = true → ∃ first ∈ run.head?, first.pin = true

def SemOperator.Unflagged (op : SemOperator) : Prop := op.pin = false ∧ op.unpin = false

section Runs

variable {next : Option OpBehavior}

theorem RunFlags.of_noUnpin (noUnpin : ∀ op ∈ chain, op.unpin = false)
    (firstPins : FirstPins chain)
    (pins : (∃ first ∈ chain.head?, first.pin = true) ↔
      next = some .join ∨ next = none ∧ 2 ≤ chain.length) : RunFlags next chain where
  exclusive op member both := Bool.false_ne_true ((noUnpin op member).symm.trans both.2)
  firstPins := firstPins
  pins := pins
  lastUnpins op member := noUnpin op (List.mem_of_mem_dropLast member)
  returns op member unpin := absurd ((noUnpin op member).symm.trans unpin) Bool.false_ne_true

theorem finalizeChain_runFlags (nonempty : chain ≠ [])
    (bare : ∀ op ∈ chain, op.Unflagged) :
    RunFlags next (finalizeChain next chain) := by
  have plain : Plain chain := fun op member => (bare op member).1
  have noUnpin : ∀ op ∈ chain, op.unpin = false := fun op member => (bare op member).2
  have untouched (other : ¬ (next = some .join ∨ next = none ∧ 2 ≤ chain.length)) :
      RunFlags next chain := by
    refine .of_noUnpin noUnpin plain.firstPins ⟨?_, fun pinned => absurd pinned other⟩
    rintro ⟨first, head, pin⟩
    rw [plain first (List.mem_of_mem_head? head)] at pin
    cases pin
  cases next with
  | none =>
    by_cases several : 1 < chain.length
    · obtain ⟨first, middle, last, rfl, flags, firstPins⟩ := finalizeChain_several plain several
      rw [flags] at firstPins ⊢
      have early : ∀ op ∈ { first with pin := true } :: middle, op.unpin = false := by
        intro op member
        cases member with
        | head => exact noUnpin first List.mem_cons_self
        | tail _ later =>
          exact noUnpin op (List.mem_cons_of_mem _ (List.mem_append_left _ later))
      refine ⟨?_, firstPins, ⟨fun _ => .inr ⟨rfl, by simp⟩, fun _ => ⟨_, rfl, rfl⟩⟩, ?_,
        fun _ _ _ => ⟨_, rfl, rfl⟩⟩
      · rintro op member ⟨pin, unpin⟩
        cases member with
        | head => exact Bool.false_ne_true ((early _ List.mem_cons_self).symm.trans unpin)
        | tail _ later => exact Bool.false_ne_true ((firstPins op later).symm.trans pin)
      · rw [← List.cons_append, List.dropLast_concat]
        exact early
    · rw [finalizeChain, if_neg several]
      exact untouched (by simp; omega)
  | some behavior =>
    cases behavior with
    | join =>
      obtain ⟨first, rest, rfl⟩ := List.exists_cons_of_ne_nil nonempty
      refine .of_noUnpin ?_ (firstPins_pinFirst plain)
        ⟨fun _ => .inl rfl, fun _ => ⟨_, rfl, rfl⟩⟩
      intro op member
      cases member with
      | head => exact noUnpin first List.mem_cons_self
      | tail _ later => exact noUnpin op (List.mem_cons_of_mem _ later)
    | tupleIndependent | blocking => exact untouched (by simp)

/-- The scan collects the run and finishes it in front of what follows. -/
theorem scanChains_run (run : List SemOperator) (nonempty : run ≠ []) {after : List PhysicalOp}
    (stop : ∀ op, after.head? ≠ some (.tuple op)) : ∀ chain : List SemOperator,
    scanChains chain (run.map .tuple ++ after) =
      (finalizeChain (after.head?.map behavior) (chain ++ run)).map .tuple ++
        scanChains [] after := by
  induction run with
  | nil => exact absurd rfl nonempty
  | cons op run ih =>
    intro chain
    cases run with
    | nil => exact scanChains_boundary chain op after stop
    | cons next run =>
      have later := ih (by simp) (chain ++ [op])
      rw [List.append_assoc] at later
      exact later

/-- An operator that ends a run leaves the scan with nothing collected. -/
theorem scanChains_append (before after : List PhysicalOp)
    (start : ∀ op, before.getLast? ≠ some (.tuple op)) : ∀ chain : List SemOperator,
    (before = [] → chain = []) →
      scanChains chain (before ++ after) = scanChains chain before ++ scanChains [] after := by
  induction before with
  | nil =>
    intro chain empty
    rw [empty rfl]
    rfl
  | cons head before ih =>
    have start' : ∀ op, before.getLast? ≠ some (.tuple op) := by
      intro op last
      exact start op (by rw [List.getLast?_cons, last]; rfl)
    intro chain _
    cases head with
    | join op | blocking op => exact congrArg (_ :: ·) (ih start' [] (fun _ => rfl))
    | tuple op =>
      cases before with
      | nil => exact absurd rfl (start op)
      | cons next before =>
        cases next with
        | tuple other => exact ih start' _ (fun none => nomatch none)
        | join other | blocking other =>
          rw [List.cons_append, scanChains_boundary _ _ _ (by simp), ih start' [] (fun _ => rfl),
            scanChains_boundary _ _ _ (by simp), List.append_assoc]
          rfl

theorem map_reset_unpinLast (chain : List SemOperator) :
    (unpinLast chain).map SemOperator.reset = chain.map .reset := by
  fun_induction unpinLast chain with
  | case1 => rfl
  | case2 last => rfl
  | case3 op next rest ih => exact congrArg (_ :: ·) ih

theorem map_reset_finalizeChain (next : Option OpBehavior) (chain : List SemOperator) :
    (finalizeChain next chain).map SemOperator.reset = chain.map .reset := by
  have pinned : (pinFirst chain).map SemOperator.reset = chain.map .reset := by cases chain <;> rfl
  unfold finalizeChain
  split
  · exact pinned
  · split
    · rw [map_reset_unpinLast, pinned]
    · rfl
  · rfl

theorem MaximalRun.reset {ops before after : List PhysicalOp} {run : List SemOperator}
    (maximal : MaximalRun ops before run after) :
    MaximalRun (ops.map .reset) (before.map .reset) (run.map .reset) (after.map .reset) := by
  have tuple_of_reset (found : Option PhysicalOp)
      (none : ∀ op, found ≠ some (.tuple op)) (op : SemOperator) :
      found.map PhysicalOp.reset ≠ some (.tuple op) := by
    intro same
    obtain ⟨original, rfl, isTuple⟩ := Option.map_eq_some_iff.mp same
    cases original with
    | tuple other => exact none other rfl
    | join other | blocking other => cases isTuple
  refine ⟨?_, (maximal.nonempty <| List.map_eq_nil_iff.mp ·), ?_, ?_⟩
  · simp [maximal.split, PhysicalOp.reset]
  · exact fun op => List.getLast?_map ▸ tuple_of_reset _ maximal.start op
  · exact fun op => List.head?_map ▸ tuple_of_reset _ maximal.stop op

/-- A last run of two operators or more, behind which a blocking operator stands. -/
def EndsBlocked (run : List SemOperator) (after : List PhysicalOp) : Prop :=
  after.head?.map behavior = some .blocking ∧ (∀ op, .tuple op ∉ after) ∧ 2 ≤ run.length

theorem RunFlags.pins_last_iff {run flagged : List SemOperator} {after : List PhysicalOp}
    (flags : RunFlags (after.head?.map behavior) flagged)
    (length : flagged.length = run.length) (stop : ∀ op, after.head? ≠ some (.tuple op)) :
    ((∃ first ∈ flagged.head?, first.pin = true) ↔
        after.head?.map behavior = some .join ∨
          (∀ op, .tuple op ∉ after) ∧ 2 ≤ run.length) ↔
      ¬ EndsBlocked run after := by
  rw [flags.pins, length, EndsBlocked]
  rcases after with _ | ⟨_ | _ | _, after⟩
  · simp
  · exact absurd rfl (stop _)
  · simp [behavior, toBaseOp, BaseOp.behavior]
  · simp [behavior, toBaseOp, BaseOp.behavior]

/-- In the result a run keeps its operators up to their flags.  Its first operator pins, and no
other one, exactly if a join follows the run, or nothing follows it and it has two operators or
more; its last operator, and no other one, may unpin, and does so only if the first pins.  The
last run of the query is treated as such exactly if it does not end at a blocking operator. -/
theorem pin_flags_of_run (ops before : List PhysicalOp) (run : List SemOperator)
    (after : List PhysicalOp) (maximal : MaximalRun ops before run after) :
    ∃ flagged, applyPinUnpin true ops =
        applyPinUnpin true before ++ (flagged.map .tuple ++ applyPinUnpin true after) ∧
      flagged.map SemOperator.reset = run.map .reset ∧
      RunFlags (after.head?.map behavior) flagged ∧
      (((∃ first ∈ flagged.head?, first.pin = true) ↔
          after.head?.map behavior = some .join ∨
            (∀ op, .tuple op ∉ after) ∧ 2 ≤ run.length) ↔
        ¬ EndsBlocked run after) := by
  have plain := maximal.reset
  have sameNext : (after.map reset).head?.map behavior =
      after.head?.map behavior := by
    rcases after with _ | ⟨_ | _ | _, after⟩ <;> rfl
  have scanned : applyPinUnpin true ops = scanChains [] (ops.map .reset) := rfl
  have same : (finalizeChain (after.head?.map behavior) (run.map .reset)).map
      SemOperator.reset = run.map .reset := by
    rw [map_reset_finalizeChain, List.map_map]
    rfl
  have flags : RunFlags (after.head?.map behavior)
      (finalizeChain (after.head?.map behavior) (run.map .reset)) := by
    refine finalizeChain_runFlags plain.nonempty ?_
    intro op member
    obtain ⟨original, -, rfl⟩ := List.mem_map.mp member
    exact ⟨rfl, rfl⟩
  refine ⟨_, ?_, same, flags, flags.pins_last_iff ?_ maximal.stop⟩
  · rw [scanned, plain.split, scanChains_append _ _ plain.start [] (fun _ => rfl),
      scanChains_run _ plain.nonempty plain.stop, sameNext]
    rfl
  · simpa using congrArg List.length same

end Runs

def parsedOp (opClass : OpClass) (position : Int) : SemOperator where
  opClass := opClass
  position := position
  predicate := true
  estimateTokens := fun _ _ => 1

def filterThen (opClass : OpClass) : List PhysicalOp :=
  [.tuple (parsedOp (.semFilter false) 0), .tuple (parsedOp opClass 1)]

theorem pin_flags_of_filter_map :
    MaximalRun (filterThen .semMap) [] [parsedOp (.semFilter false) 0, parsedOp .semMap 1] [] ∧
      ∃ flagged : List SemOperator,
        applyPinUnpin true (filterThen .semMap) = [] ++ (flagged.map .tuple ++ []) ∧
        flagged.map SemOperator.reset = [parsedOp (.semFilter false) 0, parsedOp .semMap 1].map
          .reset ∧
        RunFlags none flagged ∧ ∃ first ∈ flagged.head?, first.pin = true := by
  have maximal : MaximalRun (filterThen .semMap) []
      [parsedOp (.semFilter false) 0, parsedOp .semMap 1] [] :=
    ⟨rfl, List.cons_ne_nil _ _, by simp, by simp⟩
  obtain ⟨flagged, result, same, flags, lastRun⟩ := pin_flags_of_run _ [] _ [] maximal
  refine ⟨maximal, flagged, result, same, flags, ?_⟩
  exact (lastRun.mpr (by simp [EndsBlocked])).mpr (.inr ⟨by simp, Nat.le_refl _⟩)

/-- A filter, a map and a classification in front of a blocking operator: the last run of the query
has three operators, and none of them pins. -/
theorem last_run_without_pin :
    ∃ reducer : ReducerOp,
      let run := [parsedOp (.semFilter false) 0, parsedOp .semMap 1, parsedOp .semClassify 2]
      MaximalRun (run.map .tuple ++ [.blocking reducer]) [] run [.blocking reducer] ∧
        ∀ op, .tuple op ∈ applyPinUnpin true (run.map .tuple ++ [.blocking reducer]) →
          op.pin = false := by
  let reducer : ReducerOp := ⟨id, fun _ _ member => .inl member⟩
  refine ⟨reducer, ?_⟩
  intro run
  exact ⟨⟨rfl, List.cons_ne_nil _ _, (fun _ none => nomatch none), fun _ same => nomatch same⟩,
    plainOps_reset (run.map tuple ++ [blocking reducer])⟩

/-! ## The stages of the plan -/

structure Chained (ops : List PhysicalOp) (stage : Stage TupleData) : Prop where
  operators : stage.operators = (chainOf ops stage).map SemOperator.toTupleOp
  firstPins : FirstPins (chainOf ops stage)
  fanout : ∀ op, stage.fanoutOp = some op → ∀ ctx, ∀ child ∈ op.call ctx, child.pinReqId = none

/-- A pin that the stage takes is handed to its fan-out, or given back in the stage. -/
def Stage.ReturnsPins (ops : List PhysicalOp) (stage : Stage TupleData) : Prop :=
  Chained ops stage ∧ (stage.fanoutOp ≠ none ∨ Settles (chainOf ops stage))

def PlanItem.ReturnsPins (ops : List PhysicalOp) : PlanItem TupleData → Prop
  | .segment stages => ∀ stage ∈ stages, stage.ReturnsPins ops
  | .join op => ∀ ctx, ∀ child ∈ op.call ctx, child.pinReqId = none
  | .blocking op => ∀ ctxs, ∀ ctx ∈ op.call ctxs, ctx ∈ ctxs ∨ ctx.pinReqId = none

/-- The builder has laid out the chains `done`; `chain` is pending and `rest` is still to come. -/
structure Laid (ops : List PhysicalOp) (done : List (List SemOperator)) (chain : List SemOperator)
    (rest : List PhysicalOp) (st : BuildState TupleData) : Prop where
  chains : chainsFrom [] ops = done ++ chainsFrom chain rest
  pending : st.stageOpsChain = chain.map SemOperator.toTupleOp
  next : st.nextStageId = done.length + 1
  segment : ∀ stage ∈ st.currentSegment, stage.ReturnsPins ops
  plan : ∀ item ∈ st.plan, item.ReturnsPins ops
  flagged : Flagged chain rest

def closed (chain : List SemOperator) : List (List SemOperator) :=
  if chain = [] then [] else [chain]

theorem mem_unpinnedRows {rows : SemContext TupleData → List TupleData}
    {ctx child : SemContext TupleData} (member : child ∈ unpinnedRows rows ctx) :
    child.pinReqId = none := by
  obtain ⟨data, -, rfl⟩ := List.mem_map.mp member
  rfl

section Build

variable {ops rest : List PhysicalOp} {done : List (List SemOperator)} {chain : List SemOperator}
  {st st' : BuildState TupleData} {env : BuildEnv TupleData}

theorem emitStage_cases {more : List (List SemOperator)}
    (chains : chainsFrom [] ops = done ++ (closed chain ++ more))
    (pending : st.stageOpsChain = chain.map SemOperator.toTupleOp)
    (next : st.nextStageId = done.length + 1) (firstPins : FirstPins chain) :
    (emitStage st).nextStageId = (done ++ closed chain).length + 1 ∧
      (emitStage st).plan = st.plan ∧
      ((chain = [] ∧ (emitStage st).currentSegment = st.currentSegment) ∨
        ∃ stage, (emitStage st).currentSegment = st.currentSegment ++ [stage] ∧
          Chained ops stage ∧ chainOf ops stage = chain) := by
  by_cases empty : chain = []
  · have nothing : st.stageOpsChain = [] := by rw [pending, empty, List.map_nil]
    have same : emitStage st = st := by
      rw [emitStage, nothing]
      rfl
    rw [same]
    refine ⟨?_, rfl, .inl ⟨empty, rfl⟩⟩
    rw [closed, if_pos empty, List.append_nil]
    exact next
  · have something : st.stageOpsChain.isEmpty = false := by
      rw [pending, List.isEmpty_eq_false_iff]
      exact fun none => empty (List.map_eq_nil_iff.mp none)
    have isClosed : closed chain = [chain] := if_neg empty
    have emitted : emitStage st = { st with
        currentSegment := st.currentSegment ++
          [stageBuilder st.kv st.stageOpsChain st.nextStageId st.nextPriorityOffset]
        nextStageId := st.nextStageId + 1
        nextPriorityOffset := st.nextPriorityOffset + st.stageOpsChain.length
        stageOpsChain := [] } := by
      rw [emitStage, something]
      rfl
    have own : chainOf ops
        (stageBuilder st.kv st.stageOpsChain st.nextStageId st.nextPriorityOffset) = chain := by
      rw [chainOf, chains, isClosed, List.getD_eq_getElem?_getD, stageBuilder, next,
        Nat.add_sub_cancel, List.getElem?_append_right (Nat.le_refl _), Nat.sub_self]
      rfl
    rw [emitted, isClosed]
    refine ⟨?_, rfl, .inr ⟨_, rfl, ⟨?_, ?_, ?_⟩, own⟩⟩
    · rw [List.length_append, List.length_singleton]
      exact congrArg (· + 1) next
    · rw [own]
      exact pending
    · rw [own]
      exact firstPins
    · intro _ none
      cases none

/-- Handing the last stage a fan-out releases it from giving its pin back. -/
theorem returnsPins_setLastFanout (op : ProductOp) {front : List (Stage TupleData)}
    {last : Stage TupleData} (settled : ∀ stage ∈ front, stage.ReturnsPins ops)
    (chained : Chained ops last) :
    ∀ stage ∈ setLastFanout op.toJoinOp (front ++ [last]), stage.ReturnsPins ops := by
  rw [setLastFanout_append]
  intro stage member
  rcases List.mem_append.mp member with old | new
  · exact settled stage old
  · rw [List.mem_singleton.mp new]
    refine ⟨⟨chained.operators, chained.firstPins, ?_⟩, .inl (fun none => nomatch none)⟩
    intro fanout isFanout ctx child produced
    cases isFanout
    exact mem_unpinnedRows produced

theorem Laid.emitted {more : List (List SemOperator)} (laid : Laid ops done chain rest st)
    (chains : chainsFrom chain rest = closed chain ++ more) (firstPins : FirstPins chain)
    (settles : Settles chain) :
    (emitStage st).nextStageId = (done ++ closed chain).length + 1 ∧
      (emitStage st).plan = st.plan ∧
      ∀ stage ∈ (emitStage st).currentSegment, stage.ReturnsPins ops := by
  obtain ⟨next, plan, cases⟩ := emitStage_cases (chains ▸ laid.chains) laid.pending laid.next
    firstPins
  refine ⟨next, plan, ?_⟩
  rcases cases with ⟨-, same⟩ | ⟨last, longer, chained, own⟩
  · rw [same]
    exact laid.segment
  · rw [longer]
    intro stage member
    rcases List.mem_append.mp member with old | new
    · exact laid.segment stage old
    · rw [List.mem_singleton.mp new]
      exact ⟨chained, .inr (own ▸ settles)⟩

/-- Flushing turns the stages of the segment into an item of the plan. -/
theorem flushSegment_returnsPins (flushed : flushSegment env st = .ok st')
    (segment : ∀ stage ∈ st.currentSegment, stage.ReturnsPins ops)
    (plan : ∀ item ∈ st.plan, item.ReturnsPins ops) : ∀ item ∈ st'.plan, item.ReturnsPins ops := by
  obtain ⟨-, rfl⟩ | ⟨kv, -, rfl⟩ := flushSegment_cases flushed
  · exact plan
  · intro item member
    rcases List.mem_append.mp member with old | new
    · exact plan item old
    · rw [List.mem_singleton.mp new]
      exact segment

theorem Laid.tuple {op : SemOperator} (laid : Laid ops done chain (.tuple op :: rest) st)
    (built : buildOperator env st (tuple op).toBaseOp = .ok st') :
    Laid ops done (chain ++ [op]) rest st' := by
  cases built
  refine ⟨laid.chains, ?_, laid.next, laid.segment, laid.plan, laid.flagged⟩
  rw [List.map_append, ← laid.pending]
  rfl

theorem Laid.join {op : ProductOp} (laid : Laid ops done chain (.join op :: rest) st)
    (built : buildOperator env st (join op).toBaseOp = .ok st') :
    Laid ops (done ++ closed chain) [] rest st' := by
  obtain ⟨firstPins, flagged⟩ := laid.flagged
  have chains : chainsFrom [] ops = done ++ (closed chain ++ chainsFrom [] rest) := laid.chains
  obtain ⟨next, plan, segment⟩ := emitStage_cases chains laid.pending laid.next firstPins
  have noChain : (emitStage st).stageOpsChain = [] := emitStage_chain st
  have chains' : chainsFrom [] ops = (done ++ closed chain) ++ chainsFrom [] rest := by
    rw [chains, List.append_assoc]
  simp only [toBaseOp, buildOperator] at built
  -- The join stands alone if no stage is open, and is the fan-out of the last stage otherwise.
  split at built
  · rename_i noStage
    have noSegment : (emitStage st).currentSegment = [] := List.isEmpty_iff.mp noStage
    have flushed : flushSegment env (emitStage st) = .ok (emitStage st) := by
      rw [flushSegment, if_pos noStage]
    rw [flushed] at built
    cases built
    refine ⟨chains', noChain, next, ?_, ?_, flagged⟩
    · intro stage member
      rw [noSegment] at member
      cases member
    · intro item member
      rcases List.mem_append.mp member with old | new
      · exact laid.plan item (plan ▸ old)
      · rw [List.mem_singleton.mp new]
        exact fun ctx child produced => mem_unpinnedRows produced
  · rename_i someStage
    cases built
    refine ⟨chains', noChain, next, ?_, ?_, flagged⟩
    · rcases segment with ⟨-, same⟩ | ⟨last, longer, chained, -⟩
      · have nonempty : st.currentSegment ≠ [] := by
          intro none
          rw [same, none] at someStage
          exact someStage rfl
        obtain ⟨front, last, split⟩ : ∃ front last, st.currentSegment = front ++ [last] :=
          ⟨_, _, (List.dropLast_append_getLast nonempty).symm⟩
        have settled : ∀ stage ∈ front, stage.ReturnsPins ops := fun stage member =>
          laid.segment stage (split ▸ List.mem_append_left _ member)
        have chained : Chained ops last := (laid.segment last (split ▸ by simp)).1
        simp only [same, split]
        exact returnsPins_setLastFanout op settled chained
      · simp only [longer]
        exact returnsPins_setLastFanout op laid.segment chained
    · intro item member
      exact laid.plan item (plan ▸ member)

theorem Laid.blocking {op : ReducerOp} (laid : Laid ops done chain (.blocking op :: rest) st)
    (built : buildOperator env st (blocking op).toBaseOp = .ok st') :
    Laid ops (done ++ closed chain) [] rest st' := by
  obtain ⟨⟨firstPins, settles⟩, flagged⟩ := laid.flagged
  have here : chainsFrom chain (.blocking op :: rest) = closed chain ++ chainsFrom [] rest := rfl
  obtain ⟨next, plan, segment⟩ := laid.emitted here firstPins settles
  simp only [toBaseOp, buildOperator] at built
  obtain ⟨middle, flushed, same⟩ := bind_eq_ok.mp built
  cases same
  obtain ⟨noSegment, sameNext, sameChain⟩ : middle.currentSegment = [] ∧
      middle.nextStageId = (emitStage st).nextStageId ∧
      middle.stageOpsChain = (emitStage st).stageOpsChain := by
    obtain ⟨none, rfl⟩ | ⟨kv, -, rfl⟩ := flushSegment_cases flushed
    · exact ⟨none, rfl, rfl⟩
    · exact ⟨rfl, rfl, rfl⟩
  refine ⟨?_, ?_, ?_, ?_, ?_, flagged⟩
  · rw [laid.chains, here, List.append_assoc]
  · exact sameChain.trans (emitStage_chain st)
  · exact sameNext.trans next
  · intro stage member
    rw [noSegment] at member
    cases member
  · intro item member
    rcases List.mem_append.mp member with old | new
    · exact flushSegment_returnsPins flushed segment (plan ▸ laid.plan) item old
    · rw [List.mem_singleton.mp new]
      exact op.unpinned

theorem Laid.foldlM (rest : List PhysicalOp) :
    ∀ (done : List (List SemOperator)) (chain : List SemOperator) (st : BuildState TupleData),
      Laid ops done chain rest st →
        (rest.map toBaseOp).foldlM (buildOperator env) st = .ok st' →
          ∃ done' chain', Laid ops done' chain' [] st' := by
  induction rest with
  | nil =>
    intro done chain st laid built
    cases built
    exact ⟨done, chain, laid⟩
  | cons head rest ih =>
    intro done chain st laid built
    rw [List.map_cons, List.foldlM_cons] at built
    obtain ⟨middle, first, later⟩ := bind_eq_ok.mp built
    cases head with
    | tuple op => exact ih _ _ middle (laid.tuple first) later
    | join op => exact ih _ _ middle (laid.join first) later
    | blocking op => exact ih _ _ middle (laid.blocking first) later

end Build

/-- In a plan for operators whose flags fit, what an item pins it also gives back. -/
theorem build_returnsPins {ops : List PhysicalOp} {env : BuildEnv TupleData}
    {kv kv' : KVMemoryManager} {plan : List (PlanItem TupleData)} (flagged : Flagged [] ops)
    (built : build env kv (ops.map toBaseOp) = .ok (plan, kv')) :
    ∀ item ∈ plan, item.ReturnsPins ops := by
  have start : Laid ops [] [] ops (BuildState.init kv) :=
    ⟨rfl, rfl, rfl, (fun _ member => nomatch member), (fun _ member => nomatch member), flagged⟩
  obtain ⟨st, final, read, flushed, rfl, -⟩ := build_eq_ok built
  obtain ⟨done, chain, laid⟩ := Laid.foldlM ops [] [] _ start read
  obtain ⟨firstPins, settles⟩ := laid.flagged
  have chains : chainsFrom chain [] = closed chain ++ [] := by
    rw [List.append_nil]
    rfl
  obtain ⟨-, same, segment⟩ := laid.emitted chains firstPins settles
  exact flushSegment_returnsPins flushed segment (same ▸ laid.plan)

end Kalypso.Query
