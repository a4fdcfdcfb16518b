import Kalypso.Query.VectorService
import Kalypso.Lib.Trace
import Mathlib.Algebra.Ring.Int.Defs
import Mathlib.Data.Int.Order.Basic

/-!
# The indexed join

`IndexedCartesianProduct` and `IndexedSearch` ask the retrieval service for the rows of a right
table that match a left tuple.  They query first, under the id of the operator, and send the
table only if the query fails.  `ICPFilter` then decides on a pair by its score, and asks the
oracle filter about the scores between its thresholds.
-/

set_option autoImplicit false

namespace Kalypso.Query

open Kalypso.Lib
open VectorDBService

inductive Field (D : Type) where
  | position (idx : Nat)
  | data (data : D)
  deriving DecidableEq

abbrev Row (D : Type) := List (Field D)

/-- What `IndexedCartesianProduct` and `IndexedSearch` have in common. -/
structure IndexedOperator (D S : Type) where
  rightTable : List D
  topK : Option Nat
  lowThreshold : Option S
  highThreshold : Option S
  cpId : String

/-- What becomes of a request: answered, lost on its way to the service, or served but without an
answer in time.  The last two raise `RequestException`. -/
inductive Delivery where
  | answered
  | lost
  | unanswered
  deriving DecidableEq

inductive Post where
  | query
  | buildIndex
  | retry
  deriving DecidableEq

variable {D L P V S : Type} (retriever : Retriever L (Row D) V S)

namespace IndexedOperator

/-- `__init__`; `objectId` is `id(self)`, which is free again once the operator is destroyed. -/
def init (rightTable : Option (List D)) (topK : Option Nat) (lowThreshold highThreshold : Option S)
    (cpId : Option String) (position : Int) (objectId : Nat) : IndexedOperator D S where
  rightTable := rightTable.getD []
  topK := topK
  lowThreshold := lowThreshold
  highThreshold := highThreshold
  cpId :=
    match cpId with
    | some id => if id = "" then s!"icp:{position}:{objectId}" else id
    | none => s!"icp:{position}:{objectId}"

def indexedRow (entry : D × Nat) : Row D := [.position entry.2, .data entry.1]

def indexedRows (op : IndexedOperator D S) : List (Row D) := op.rightTable.zipIdx.map indexedRow

/-- The payload of a query: the thresholds if there is one of them, else `top_k`. -/
def payload (op : IndexedOperator D S) (left : L) : QueryArgs L (Row D) S :=
  if op.lowThreshold.isSome || op.highThreshold.isSome then
    ⟨op.cpId, left, none, none, op.lowThreshold, op.highThreshold⟩
  else ⟨op.cpId, left, none, op.topK, none, none⟩

def request (op : IndexedOperator D S) (left : L) : Post → ServiceRequest L (Row D) S
  | .query => .query (op.payload left)
  | .buildIndex => .buildIndex op.cpId op.indexedRows
  | .retry => .query (op.payload left)

variable [DecidableEq D] [LinearOrder S]

/-- `_post_icp`; `none` is a `RequestException`. -/
def postIcp (op : IndexedOperator D S) (left : L) (post : Post) (delivery : Delivery)
    (service : VectorDBService (Row D) V) : Option (Reply (Row D) S) × VectorDBService (Row D) V :=
  let (reply, after) := service.serve retriever (op.request left post)
  match delivery with
  | .answered => (some reply, after)
  | .lost => (none, service)
  | .unanswered => (none, after)

/-- `_build_remote_index`; `false` is a `RequestException`. -/
def buildRemoteIndex (op : IndexedOperator D S) (left : L) (delivery : Delivery)
    (service : VectorDBService (Row D) V) : Bool × VectorDBService (Row D) V :=
  if op.rightTable.isEmpty then (true, service)
  else
    match op.postIcp retriever left .buildIndex delivery service with
    | (some (.indexed _), service) => (true, service)
    | (_, service) => (false, service)

/-- `_query_retrieval`; `none` is a `RequestException`. -/
def queryRetrieval (op : IndexedOperator D S) (left : L) (net : Post → Delivery)
    (service : VectorDBService (Row D) V) : Option (List (Row D × S)) × VectorDBService (Row D) V :=
  match op.postIcp retriever left .query (net .query) service with
  | (none, service) => (none, service)
  | (some (.results rows), service) => (some rows, service)
  | (some _, service) =>
      match op.buildRemoteIndex retriever left (net .buildIndex) service with
      | (false, service) => (none, service)
      | (true, service) =>
          match op.postIcp retriever left .retry (net .retry) service with
          | (some (.results rows), service) => (some rows, service)
          | (_, service) => (none, service)

end IndexedOperator

/-! ## The operators -/

structure PairContext (L P S : Type) where
  data : L
  rightData : P
  helperScore : Option S
  deriving DecidableEq

/-- The context that `IndexedCartesianProduct` makes for a row; rows with less than two fields are
skipped. -/
def pairContext (getDataPrompt : Field D → P) (left : L) (row : Row D × S) :
    Option (PairContext L P S) :=
  match row.1 with
  | _ :: data :: _ => some ⟨left, getDataPrompt data, some row.2⟩
  | _ => none

/-- The fallback of `IndexedCartesianProduct`: every row, with the score 0. -/
def IndexedOperator.fallbackRows [Zero S] (op : IndexedOperator D S) : List (Row D × S) :=
  op.indexedRows.map (·, 0)

/-- `IndexedCartesianProduct.__call__`; `none` is a `RequestException`. -/
def indexedCartesianProduct [DecidableEq D] [LinearOrder S] [Zero S] (getDataPrompt : Field D → P)
    (op : IndexedOperator D S) (left : L) (net : Post → Delivery)
    (service : VectorDBService (Row D) V) :
    Option (List (PairContext L P S)) × VectorDBService (Row D) V :=
  match op.queryRetrieval retriever left net service with
  | (some rows, service) => (some (rows.filterMap (pairContext getDataPrompt left)), service)
  | (none, service) =>
      if op.rightTable.isEmpty then (none, service)
      else (some (op.fallbackRows.filterMap (pairContext getDataPrompt left)), service)

/-- The documents that `IndexedSearch.__call__` adds to a tuple: rank, id and text. -/
def indexedSearch [DecidableEq D] [LinearOrder S] (op : IndexedOperator D S) (left : L)
    (net : Post → Delivery) (service : VectorDBService (Row D) V) :
    Option (List (Nat × Field D × Field D)) × VectorDBService (Row D) V :=
  match op.queryRetrieval retriever left net service with
  | (some rows, service) =>
      (some ((rows.zipIdx 1).filterMap fun ranked =>
        match ranked.1.1 with
        | docId :: text :: _ => some (ranked.2, docId, text)
        | _ => none), service)
  | (none, service) => (none, service)

/-! ## The filter -/

inductive ResolvedBy where
  | icpHelperPositive
  | icpHelperNegative
  | icpOracleFallback
  deriving DecidableEq

structure ICPFilter (S : Type) [LinearOrder S] where
  lowThreshold : S
  highThreshold : S
  ordered : lowThreshold ≤ highThreshold

namespace ICPFilter

variable [LinearOrder S]

/-- `__init__`; `none` is a `ValueError`. -/
def init (lowThreshold highThreshold : Option S) : Option (ICPFilter S) :=
  match lowThreshold, highThreshold with
  | some low, some high => if ordered : low ≤ high then some ⟨low, high, ordered⟩ else none
  | _, _ => none

/-- `__call__`: who decided, and whether the pair passed.  `none` is a `ValueError`. -/
def call (oracleFilter : L → P → Bool) (filter : ICPFilter S) (ctx : PairContext L P S) :
    Option (ResolvedBy × Bool) :=
  match ctx.helperScore with
  | none => none
  | some score =>
      if filter.highThreshold ≤ score then some (.icpHelperPositive, true)
      else if score ≤ filter.lowThreshold then some (.icpHelperNegative, false)
      else some (.icpOracleFallback, oracleFilter ctx.data ctx.rightData)

def survivors (oracleFilter : L → P → Bool) (filter : ICPFilter S)
    (contexts : List (PairContext L P S)) : List (PairContext L P S) :=
  contexts.filter fun ctx => (filter.call oracleFilter ctx).any (·.2)

end ICPFilter

def icpJoin [DecidableEq D] [LinearOrder S] [Zero S] (getDataPrompt : Field D → P)
    (oracleFilter : L → P → Bool) (op : IndexedOperator D S) (filter : ICPFilter S) (left : L)
    (net : Post → Delivery) (service : VectorDBService (Row D) V) :
    Option (List (PairContext L P S)) × VectorDBService (Row D) V :=
  let (contexts, service) := indexedCartesianProduct retriever getDataPrompt op left net service
  (contexts.map (filter.survivors oracleFilter), service)

/-! ## The index of the operator -/

open IndexedOperator

namespace IndexedOperator

variable {retriever}

def OwnIndex (retriever : Retriever L (Row D) V S) (op : IndexedOperator D S)
    (service : VectorDBService (Row D) V) : Prop :=
  ∀ vs, service.cache.get? op.cpId = some vs →
    op.rightTable ≠ [] ∧ vs = indexOf retriever op.indexedRows

@[simp] theorem payload_cpId (op : IndexedOperator D S) (left : L) :
    (op.payload left).cpId = op.cpId := by
  unfold payload
  split <;> rfl

@[simp] theorem payload_rightTable (op : IndexedOperator D S) (left : L) :
    (op.payload left).rightTable = none := by
  unfold payload
  split <;> rfl

variable {service : VectorDBService (Row D) V} {op : IndexedOperator D S}

theorem request_table {left : L} {post : Post} {key : String} {table : List (Row D)}
    (sent : (op.request left post).table = some (key, table)) :
    post = .buildIndex ∧ key = op.cpId ∧ table = op.indexedRows := by
  cases post with
  | query | retry => simp [request, ServiceRequest.table] at sent
  | buildIndex =>
    cases sent
    exact ⟨rfl, rfl, rfl⟩

variable [DecidableEq D] [LinearOrder S]

/-- A request of the operator leaves its own index only; it sends its table only if that
has rows. -/
theorem OwnIndex.postIcp (own : op.OwnIndex retriever service) (left : L) (post : Post)
    (delivery : Delivery) (hasRows : post = .buildIndex → op.rightTable ≠ []) :
    op.OwnIndex retriever (op.postIcp retriever left post delivery service).2 := by
  have served : op.OwnIndex retriever (service.serve retriever (op.request left post)).2 := by
    intro vs held
    cases serve_cache _ _ held with
    | inl before => exact own vs before
    | inr new =>
      obtain ⟨table, sent, index⟩ := new
      obtain ⟨build, _, rows⟩ := request_table sent
      subst rows
      exact ⟨hasRows build, index⟩
  cases delivery with
  | answered => exact served
  | lost => exact own
  | unanswered => exact served

theorem OwnIndex.buildRemoteIndex (own : op.OwnIndex retriever service) (left : L)
    (delivery : Delivery) :
    op.OwnIndex retriever (op.buildRemoteIndex retriever left delivery service).2 := by
  unfold IndexedOperator.buildRemoteIndex
  split
  · exact own
  · rename_i hasRows
    have kept := own.postIcp left .buildIndex delivery
      fun _ => by simpa [List.isEmpty_iff] using hasRows
    split
    · rename_i posted
      rw [posted] at kept
      exact kept
    · rename_i posted
      rw [posted] at kept
      exact kept

theorem OwnIndex.queryRetrieval (own : op.OwnIndex retriever service) (left : L)
    (net : Post → Delivery) :
    op.OwnIndex retriever (op.queryRetrieval retriever left net service).2 := by
  unfold IndexedOperator.queryRetrieval
  have queried := own.postIcp left .query (net .query) fun build => by cases build
  split
  · rename_i posted
    rw [posted] at queried
    exact queried
  · rename_i posted
    rw [posted] at queried
    exact queried
  · rename_i posted
    rw [posted] at queried
    have built := queried.buildRemoteIndex left (net .buildIndex)
    split
    · rename_i posted
      rw [posted] at built
      exact built
    · rename_i posted
      rw [posted] at built
      have retried := built.postIcp left .retry (net .retry) fun build => by cases build
      split
      · rename_i posted
        rw [posted] at retried
        exact retried
      · rename_i posted
        rw [posted] at retried
        exact retried

def serviceAfter (retriever : Retriever L (Row D) V S) (op : IndexedOperator D S) (lefts : List L) :
    VectorDBService (Row D) V :=
  lefts.foldl (fun service left =>
    (op.queryRetrieval retriever left (fun _ => .answered) service).2) .empty

theorem ownIndex_serviceAfter (op : IndexedOperator D S) (lefts : List L) :
    op.OwnIndex retriever (op.serviceAfter retriever lefts) := by
  have run : ∀ (lefts : List L) (service : VectorDBService (Row D) V),
      op.OwnIndex retriever service →
      op.OwnIndex retriever (lefts.foldl (fun service left =>
        (op.queryRetrieval retriever left (fun _ => .answered) service).2) service) := by
    intro lefts
    induction lefts with
    | nil =>
      intro service own
      exact own
    | cons left rest ih =>
      intro service own
      exact ih _ (own.queryRetrieval left _)
  refine run lefts .empty ?_
  intro vs held
  cases held

/-! ## What an operator gets from the service -/

section Answered

variable {op : IndexedOperator D S} {service : VectorDBService (Row D) V} (left : L)

theorem serve_payload_absent (absent : service.cache.get? op.cpId = none) :
    service.serve retriever (.query (op.payload left)) = (.failed, service) := by
  unfold serve
  simp only
  split
  · rfl
  · simp [query, indexFor, absent]

theorem serve_payload_cached (exact : retriever.RangeExact) {low high : S} (ordered : low < high)
    (atLow : op.lowThreshold = some low) (atHigh : op.highThreshold = some high)
    (cached : service.cache.get? op.cpId =
      some (indexOf retriever op.indexedRows)) :
    ∃ rows, service.serve retriever (.query (op.payload left)) = (.results rows, service) ∧
      rows.Perm (between retriever left low high op.indexedRows) := by
  obtain ⟨rows, found, listed⟩ :=
    searchThreshold_indexOf retriever exact left ordered op.indexedRows
  refine ⟨rows, ?_, listed⟩
  have thresholds : op.payload left = ⟨op.cpId, left, none, none, some low, some high⟩ := by
    simp [payload, atLow, atHigh]
  simp [thresholds, serve, query, indexFor, cached,
    search, found]

theorem serve_build_absent (absent : service.cache.get? op.cpId = none)
    (hasRows : op.rightTable ≠ []) :
    ∃ count after, service.serve retriever
    (.buildIndex op.cpId op.indexedRows : ServiceRequest L _ _) =
        (.indexed count, after) ∧
      after.cache.get? op.cpId = some (indexOf retriever op.indexedRows) := by
  have rows : op.indexedRows.isEmpty = false := by
    simpa [indexedRows, List.isEmpty_iff] using hasRows
  refine ⟨(indexOf retriever op.indexedRows).index.length,
    ⟨service.cache.set op.cpId (indexOf retriever op.indexedRows),
    service.tableCache.set op.cpId op.indexedRows⟩, ?_, Dict.get?_set_self _ _ _⟩
  simp only [serve, buildIndex, absent, rows]
  rfl

/-- With thresholds, the operator gets the rows of its table strictly between them. -/
theorem queryRetrieval_between (own : op.OwnIndex retriever service) (exact : retriever.RangeExact)
    {low high : S} (ordered : low < high) (atLow : op.lowThreshold = some low)
    (atHigh : op.highThreshold = some high) (hasRows : op.rightTable ≠ []) :
    ∃ rows, (op.queryRetrieval retriever left (fun _ => .answered) service).1 = some rows ∧
      rows.Perm (between retriever left low high op.indexedRows) := by
  unfold queryRetrieval
  cases cached : service.cache.get? op.cpId with
  | some vs =>
    rw [(own vs cached).2] at cached
    obtain ⟨rows, answer, listed⟩ :=
      serve_payload_cached left exact ordered atLow atHigh cached
    refine ⟨rows, ?_, listed⟩
    simp only [postIcp, request, answer]
  | none =>
    obtain ⟨count, after, built, present⟩ := serve_build_absent (L := L) cached hasRows
    obtain ⟨rows, answer, listed⟩ :=
      serve_payload_cached left exact ordered atLow atHigh present
    refine ⟨rows, ?_, listed⟩
    have nonempty : op.rightTable.isEmpty = false := by
      simpa [List.isEmpty_iff] using hasRows
    simp [postIcp, request, serve_payload_absent left cached,
      buildRemoteIndex, nonempty, built, answer]

theorem queryRetrieval_empty (own : op.OwnIndex retriever service) (noRows : op.rightTable = []) :
    (op.queryRetrieval retriever left (fun _ => .answered) service).1 = none := by
  have absent : service.cache.get? op.cpId = none := by
    cases cached : service.cache.get? op.cpId with
    | none => rfl
    | some vs => exact absurd noRows (own vs cached).1
  unfold queryRetrieval
  simp [postIcp, request, serve_payload_absent left absent,
    buildRemoteIndex, noRows]

end Answered

end IndexedOperator

/-! ## The pairs of a join by thresholds -/

section Thresholds

variable [LinearOrder S] (getDataPrompt : Field D → P) (oracleFilter : L → P → Bool)

def scoredPair (left : L) (entry : D × Nat) : PairContext L P S :=
  ⟨left, getDataPrompt (.data entry.1),
    some (retriever.score left (indexedRow entry))⟩

/-- The pairs that the thresholds define: those from the upper threshold on, and those between the
thresholds for which the oracle filter answers true. -/
def IndexedOperator.thresholdPairs (op : IndexedOperator D S) (filter : ICPFilter S) (left : L) :
    List (PairContext L P S) :=
  (op.rightTable.zipIdx.filter fun entry =>
    let score := retriever.score left (indexedRow entry)
    filter.highThreshold ≤ score ||
      filter.lowThreshold < score && score < filter.highThreshold &&
        oracleFilter left (getDataPrompt (.data entry.1))).map
    (scoredPair retriever getDataPrompt left)

/-- The pairs between the thresholds for which the oracle filter answers true. -/
def IndexedOperator.oraclePairs (op : IndexedOperator D S) (filter : ICPFilter S) (left : L) :
    List (PairContext L P S) :=
  (op.rightTable.zipIdx.filter fun entry =>
    let score := retriever.score left (indexedRow entry)
    filter.lowThreshold < score && score < filter.highThreshold &&
      oracleFilter left (getDataPrompt (.data entry.1))).map
    (scoredPair retriever getDataPrompt left)

variable {retriever getDataPrompt oracleFilter}

theorem filterMap_between (op : IndexedOperator D S) (low high : S) (left : L) :
    (between retriever left low high op.indexedRows).filterMap
        (pairContext getDataPrompt left) =
      (op.rightTable.zipIdx.filter fun entry =>
        low < retriever.score left (indexedRow entry) &&
          retriever.score left (indexedRow entry) < high).map
        (scoredPair retriever getDataPrompt left) := by
  unfold between indexedRows
  rw [List.filter_map, List.map_map, List.filterMap_map, ← List.filterMap_eq_map]
  rfl

variable {op : IndexedOperator D S} {filter : ICPFilter S}

/-- The filter leaves a pair between the thresholds to the oracle filter. -/
theorem call_scoredPair_between {left : L} {entry : D × Nat}
    (above : filter.lowThreshold < retriever.score left (indexedRow entry))
    (below : retriever.score left (indexedRow entry) < filter.highThreshold) :
    filter.call oracleFilter (scoredPair retriever getDataPrompt left entry) =
      some (.icpOracleFallback, oracleFilter left (getDataPrompt (.data entry.1))) := by
  unfold ICPFilter.call scoredPair
  simp only
  rw [if_neg (not_le.mpr below), if_neg (not_le.mpr above)]

theorem survivors_between (op : IndexedOperator D S) (filter : ICPFilter S) (left : L) :
    filter.survivors oracleFilter
        ((between retriever left filter.lowThreshold filter.highThreshold
          op.indexedRows).filterMap (pairContext getDataPrompt left)) =
      op.oraclePairs retriever getDataPrompt oracleFilter filter left := by
  rw [filterMap_between]
  unfold ICPFilter.survivors oraclePairs
  rw [List.filter_map, List.filter_filter]
  refine congrArg (List.map _) (List.filter_congr ?_)
  intro entry _
  by_cases above : filter.lowThreshold < retriever.score left (indexedRow entry)
  · by_cases below : retriever.score left (indexedRow entry) < filter.highThreshold
    · simp [call_scoredPair_between above below, above, below]
    · simp [below]
  · simp [above]

theorem thresholdPairs_eq_oraclePairs {left : L} (below : ∀ entry ∈ op.rightTable.zipIdx,
      retriever.score left (indexedRow entry) < filter.highThreshold) :
    op.thresholdPairs retriever getDataPrompt oracleFilter filter left =
      op.oraclePairs retriever getDataPrompt oracleFilter filter left := by
  refine congrArg (List.map _) (List.filter_congr ?_)
  intro entry member
  simp [below entry member, not_le.mpr (below entry member)]

variable [DecidableEq D] [Zero S] (getDataPrompt oracleFilter)

theorem icpJoin_keeps (left : L) {service : VectorDBService (Row D) V}
    (exact : retriever.RangeExact) (own : op.OwnIndex retriever service)
    (atLow : op.lowThreshold = some filter.lowThreshold)
    (atHigh : op.highThreshold = some filter.highThreshold)
    (ordered : filter.lowThreshold < filter.highThreshold) (hasRows : op.rightTable ≠ []) :
    ∃ kept, (icpJoin retriever getDataPrompt oracleFilter op filter left (fun _ => .answered)
        service).1 = some kept ∧
      kept.Perm (op.oraclePairs retriever getDataPrompt oracleFilter filter left) := by
  obtain ⟨rows, returned, listed⟩ :=
    queryRetrieval_between left own exact ordered atLow atHigh hasRows
  refine ⟨filter.survivors oracleFilter (rows.filterMap (pairContext getDataPrompt left)), ?_, ?_⟩
  · unfold icpJoin indexedCartesianProduct
    generalize op.queryRetrieval retriever left (fun _ => .answered) service = result at returned
    obtain ⟨answer, after⟩ := result
    cases returned
    rfl
  · rw [← survivors_between]
    exact (listed.filterMap _).filter _

theorem icpJoin_raises (filter : ICPFilter S) (left : L) {service : VectorDBService (Row D) V}
    (own : op.OwnIndex retriever service) (noRows : op.rightTable = []) :
    (icpJoin retriever getDataPrompt oracleFilter op filter left (fun _ => .answered)
      service).1 = none := by
  have raised := queryRetrieval_empty left own noRows
  unfold icpJoin indexedCartesianProduct
  generalize op.queryRetrieval retriever left (fun _ => .answered) service = result at raised
  obtain ⟨answer, after⟩ := result
  cases raised
  simp [noRows]

/-- A join by thresholds, after any earlier calls of its operator, keeps exactly the pairs that the
thresholds define if and only if there is a right row and no row reaches the upper threshold: a
search by thresholds does not return the rows that the filter would accept by their score. -/
theorem icpJoin_exact_iff (exact : retriever.RangeExact) (op : IndexedOperator D S)
    (filter : ICPFilter S) (atLow : op.lowThreshold = some filter.lowThreshold)
    (atHigh : op.highThreshold = some filter.highThreshold)
    (ordered : filter.lowThreshold < filter.highThreshold) (lefts : List L) (left : L) :
    (∃ kept, (icpJoin retriever getDataPrompt oracleFilter op filter left (fun _ => .answered)
        (op.serviceAfter retriever lefts)).1 = some kept ∧
      kept.Perm (op.thresholdPairs retriever getDataPrompt oracleFilter filter left)) ↔
    op.rightTable ≠ [] ∧ ∀ entry ∈ op.rightTable.zipIdx,
      retriever.score left (indexedRow entry) < filter.highThreshold := by
  have own : op.OwnIndex retriever (op.serviceAfter retriever lefts) :=
    op.ownIndex_serviceAfter lefts
  constructor
  · rintro ⟨kept, returned, same⟩
    have hasRows : op.rightTable ≠ [] := by
      intro noRows
      rw [icpJoin_raises getDataPrompt oracleFilter filter left own noRows] at returned
      cases returned
    obtain ⟨kept', returned', listed⟩ :=
      icpJoin_keeps getDataPrompt oracleFilter left exact own atLow atHigh ordered hasRows
    rw [returned] at returned'
    cases returned'
    refine ⟨hasRows, fun entry member => ?_⟩
    by_contra reaches
    -- the pair of this row is defined by the thresholds, but no kept pair has such a score
    have defined : scoredPair retriever getDataPrompt left entry ∈
        op.thresholdPairs retriever getDataPrompt oracleFilter filter left := by
      refine List.mem_map_of_mem (List.mem_filter.mpr ⟨member, ?_⟩)
      simp [not_lt.mp reaches]
    have kept := listed.mem_iff.mp (same.mem_iff.mpr defined)
    obtain ⟨other, chosen, equal⟩ := List.mem_map.mp kept
    have score := congrArg PairContext.helperScore equal
    simp only [scoredPair, Option.some.injEq] at score
    have below := (List.mem_filter.mp chosen).2
    simp only [score, Bool.and_eq_true, decide_eq_true_eq] at below
    exact reaches below.1.2
  · rintro ⟨hasRows, below⟩
    rw [thresholdPairs_eq_oraclePairs below]
    exact icpJoin_keeps getDataPrompt oracleFilter left exact own atLow atHigh ordered hasRows

end Thresholds

def wordRetriever : Retriever Unit (Row String) String Int where
  queryText := fun _ => ""
  serializeTuple := fun row =>
    match row with
    | [_, .data word] => word
    | _ => ""
  encode := id
  innerProduct := fun _ word => if word = "same" then 9 else if word = "close" then 5 else 1
  rangeSearch := fun scores low => scores.zipIdx.filter fun hit => low < hit.1
  search := fun scores _ => scores.zipIdx

theorem wordRetriever_rangeExact : wordRetriever.RangeExact := fun _ _ => .refl _

def wordJoin (rightTable : List String) : IndexedOperator String Int :=
  .init (some rightTable) (some 5) (some 3) (some 7) (some "words") 0 0

def wordFilter : ICPFilter Int := ⟨3, 7, by decide⟩

/-- The best row of the right table is lost: its score is above the upper threshold, so the search
does not return it, although the thresholds define its pair as accepted. -/
theorem icpJoin_loses_accepted_pair :
    (icpJoin wordRetriever id (fun _ _ => true) (wordJoin ["same"]) wordFilter ()
        (fun _ => .answered) ((wordJoin ["same"]).serviceAfter wordRetriever [])).1 = some [] ∧
      (wordJoin ["same"]).thresholdPairs wordRetriever id (fun _ _ => true) wordFilter () =
        [⟨(), .data "same", some 9⟩] := by
  constructor
  · decide +kernel
  · decide +kernel

theorem icpJoin_exact_close :
    ∃ kept, (icpJoin wordRetriever id (fun _ _ => true) (wordJoin ["close", "far"]) wordFilter ()
        (fun _ => .answered) ((wordJoin ["close", "far"]).serviceAfter wordRetriever [()])).1 =
          some kept ∧
      kept.Perm ((wordJoin ["close", "far"]).thresholdPairs wordRetriever id (fun _ _ => true)
        wordFilter ()) := by
  refine (icpJoin_exact_iff id (fun _ _ => true) wordRetriever_rangeExact
    (wordJoin ["close", "far"]) wordFilter rfl rfl (by decide) [()] ()).mpr ⟨?_, ?_⟩
  · decide
  · decide +kernel

/-! ## The join without the service -/

section Fallback

variable [LinearOrder S] [Zero S] (getDataPrompt : Field D → P) (oracleFilter : L → P → Bool)

def fallbackPair (left : L) (entry : D × Nat) : PairContext L P S :=
  ⟨left, getDataPrompt (.data entry.1), some 0⟩

def IndexedOperator.truePairs (op : IndexedOperator D S) (left : L) : List (PairContext L P S) :=
  (op.rightTable.zipIdx.filter fun entry => oracleFilter left (getDataPrompt (.data entry.1))).map
    (fallbackPair getDataPrompt left)

omit [LinearOrder S] in
theorem filterMap_fallbackRows (op : IndexedOperator D S) (left : L) :
    op.fallbackRows.filterMap (pairContext getDataPrompt left) =
      op.rightTable.zipIdx.map (fallbackPair getDataPrompt left) := by
  unfold fallbackRows indexedRows
  rw [List.map_map, List.filterMap_map, ← List.filterMap_eq_map]
  rfl

variable {retriever}

omit [Zero S] in
theorem IndexedOperator.queryRetrieval_unanswered [DecidableEq D] {op : IndexedOperator D S}
    {net : Post → Delivery} (fails : net .query ≠ .answered) (left : L)
    (service : VectorDBService (Row D) V) :
    (op.queryRetrieval retriever left net service).1 = none := by
  unfold queryRetrieval postIcp
  cases outcome : net .query with
  | answered => exact absurd outcome fails
  | lost => rfl
  | unanswered => rfl

/-- Without the service, the filter decides on every row by the score 0. -/
theorem icpJoin_fallback [DecidableEq D] {op : IndexedOperator D S} (filter : ICPFilter S)
    {net : Post → Delivery} (fails : net .query ≠ .answered) (hasRows : op.rightTable ≠ [])
    (left : L) (service : VectorDBService (Row D) V) :
    (icpJoin retriever getDataPrompt oracleFilter op filter left net service).1 =
      some (filter.survivors oracleFilter
        (op.rightTable.zipIdx.map (fallbackPair getDataPrompt left))) := by
  have raised : (op.queryRetrieval retriever left net service).1 = none :=
    queryRetrieval_unanswered fails left service
  unfold icpJoin indexedCartesianProduct
  generalize op.queryRetrieval retriever left net service = result at raised
  obtain ⟨answer, after⟩ := result
  cases raised
  have nonempty : op.rightTable.isEmpty = false := by
    simpa [List.isEmpty_iff] using hasRows
  simp [nonempty, filterMap_fallbackRows]

variable {filter : ICPFilter S} (left : L)

theorem call_fallbackPair_positive (accepts : filter.highThreshold ≤ 0) (entry : D × Nat) :
    filter.call oracleFilter (fallbackPair getDataPrompt left entry) =
      some (.icpHelperPositive, true) := by
  unfold ICPFilter.call fallbackPair
  simp only
  rw [if_pos accepts]

theorem call_fallbackPair_negative (below : 0 < filter.highThreshold)
    (rejects : 0 ≤ filter.lowThreshold) (entry : D × Nat) :
    filter.call oracleFilter (fallbackPair getDataPrompt left entry) =
      some (.icpHelperNegative, false) := by
  unfold ICPFilter.call fallbackPair
  simp only
  rw [if_neg (not_le.mpr below), if_pos rejects]

theorem call_fallbackPair_oracle (below : 0 < filter.highThreshold)
    (above : filter.lowThreshold < 0) (entry : D × Nat) :
    filter.call oracleFilter (fallbackPair getDataPrompt left entry) =
      some (.icpOracleFallback, oracleFilter left (getDataPrompt (.data entry.1))) := by
  unfold ICPFilter.call fallbackPair
  simp only
  rw [if_neg (not_le.mpr below), if_neg (not_le.mpr above)]

/-- If no request is answered, the join keeps exactly the pairs for which the oracle filter answers
true, and rejects none without asking it, if and only if the score 0 of the fallback is strictly
between the thresholds, or reaches the upper one and the oracle filter accepts every pair. -/
theorem icpJoin_fallback_iff [DecidableEq D] (op : IndexedOperator D S) (filter : ICPFilter S)
    (net : Post → Delivery) (fails : ∀ post, net post ≠ .answered) (hasRows : op.rightTable ≠ [])
    (left : L) (service : VectorDBService (Row D) V) :
    ((∃ kept, (icpJoin retriever getDataPrompt oracleFilter op filter left net service).1 =
          some kept ∧ kept.Perm (op.truePairs getDataPrompt oracleFilter left)) ∧
      ∀ entry ∈ op.rightTable.zipIdx,
        filter.call oracleFilter (fallbackPair getDataPrompt left entry) ≠
          some (.icpHelperNegative, false)) ↔
    (filter.lowThreshold < 0 ∧ 0 < filter.highThreshold) ∨
      (filter.highThreshold ≤ 0 ∧
        ∀ entry ∈ op.rightTable.zipIdx,
          oracleFilter left (getDataPrompt (.data entry.1)) = true) := by
  rw [icpJoin_fallback getDataPrompt oracleFilter filter (fails .query) hasRows left service]
  simp only [Option.some.injEq, exists_eq_left', ICPFilter.survivors, truePairs,
    List.filter_map]
  -- the three ways in which the filter can decide on the score 0
  by_cases accepts : filter.highThreshold ≤ 0
  · have notBelow : ¬ 0 < filter.highThreshold := not_lt.mpr accepts
    have decided := call_fallbackPair_positive getDataPrompt oracleFilter left (D := D) accepts
    simp only [Function.comp_def, decided, notBelow, accepts, and_false, true_and, false_or]
    constructor
    · rintro ⟨same, _⟩
      have lengths := same.length_eq
      simp only [Option.any_some, List.filter_true, List.length_map] at lengths
      exact List.length_filter_eq_length_iff.mp lengths.symm
    · intro all
      refine ⟨?_, fun entry _ different => by cases different⟩
      rw [List.filter_eq_self.mpr all]
      simp
  · have below : 0 < filter.highThreshold := not_le.mp accepts
    by_cases rejects : 0 ≤ filter.lowThreshold
    · have decided :=
        call_fallbackPair_negative getDataPrompt oracleFilter left (D := D) below rejects
      have notAbove : ¬ filter.lowThreshold < 0 := not_lt.mpr rejects
      simp only [decided, notAbove, accepts, false_and, or_self, iff_false]
      rintro ⟨_, asked⟩
      obtain ⟨first, rest, rows⟩ := List.exists_cons_of_ne_nil hasRows
      exact asked (first, 0) (by simp [rows, List.zipIdx_cons]) rfl
    · have above : filter.lowThreshold < 0 := not_le.mp rejects
      have decided := call_fallbackPair_oracle getDataPrompt oracleFilter left (D := D) below above
      simp only [Function.comp_def, decided, above, below, and_self, true_or, iff_true]
      refine ⟨.refl _, fun entry _ different => by cases different⟩

end Fallback

/-- With the thresholds 3 and 7 an outage of the service empties the join: every pair is rejected
by the score of the fallback, although the oracle filter would accept it. -/
theorem icpJoin_fallback_rejects_all :
    (icpJoin wordRetriever id (fun _ _ => true) (wordJoin ["same", "close"]) wordFilter ()
        (fun _ => .lost) .empty).1 = some [] ∧
      (wordJoin ["same", "close"]).truePairs id (fun _ _ => true) () =
        [⟨(), .data "same", some 0⟩, ⟨(), .data "close", some 0⟩] := by
  constructor
  · decide +kernel
  · decide +kernel

def signFilter : ICPFilter Int := ⟨-1, 1, by decide⟩

theorem icpJoin_fallback_signed :
    ∃ kept, (icpJoin wordRetriever id (fun _ data => data = .data "same")
        (wordJoin ["same", "close"]) signFilter () (fun _ => .lost) .empty).1 = some kept ∧
      kept.Perm ((wordJoin ["same", "close"]).truePairs id
        (fun _ data => data = .data "same") ()) :=
  ((icpJoin_fallback_iff id (fun _ data => data = .data "same") (wordJoin ["same", "close"])
    signFilter (fun _ => .lost) (fun _ => by decide) (by decide) () .empty).mpr
      (.inl (by decide))).1

end Kalypso.Query
