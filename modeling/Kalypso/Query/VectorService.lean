import Kalypso.Lib.Dict
import Kalypso.Lib.Raise
import Mathlib.Data.List.Perm.Basic
import Mathlib.Order.Lattice

/-!
# The retrieval service

`VectorDBService` keeps one FAISS index for each id under which a right table has been indexed.
A query for an id is answered from the index of that id, whatever table it was built from.
-/

set_option autoImplicit false

namespace Kalypso.Query

open Kalypso.Lib

structure Retriever (Q R V S : Type) where
  /-- the text of a left tuple -/
  queryText : Q → String
  /-- the text of a row -/
  serializeTuple : R → String
  encode : String → V
  /-- the score of a row with one embedding for a query with another -/
  innerProduct : V → V → S
  /-- `range_search` on the scores of all rows: scores and positions -/
  rangeSearch : List S → S → List (S × Nat)
  /-- `search` on the scores of all rows -/
  search : List S → Nat → List (S × Nat)

inductive ServiceError where
  /-- `ValueError`: cached index built with different table -/
  | differentTable
  /-- `ValueError`: `right_table` must not be empty -/
  | emptyTable
  /-- `ValueError`: no index for the id -/
  | noIndex
  /-- `ValueError`: both thresholds are required for threshold search -/
  | thresholdMissing
  /-- `ValueError`: `low_threshold` must be < `high_threshold` -/
  | thresholdsReversed
  /-- `ValueError`: `top_k` is required when thresholds are not specified -/
  | topKMissing
  /-- `IndexError` -/
  | indexOutOfRange

structure FaissVS (R V : Type) where
  index : List V
  metadata : List R
  aligned : index.length = metadata.length

structure VectorDBService (R V : Type) where
  cache : Dict String (FaissVS R V)
  tableCache : Dict String (List R)

structure QueryArgs (Q R S : Type) where
  cpId : String
  leftTuple : Q
  rightTable : Option (List R)
  topK : Option Nat
  lowThreshold : Option S
  highThreshold : Option S

variable {Q R V S : Type} (retriever : Retriever Q R V S)

namespace FaissVS

def rowAt (vs : FaissVS R V) (hit : S × Nat) : Except ServiceError (R × S) :=
  match vs.metadata[hit.2]? with
  | some row => .ok (row, hit.1)
  | none => .error .indexOutOfRange

def scores (query : V) (vs : FaissVS R V) : List S := vs.index.map (retriever.innerProduct query)

def searchTopK (query : V) (topK : Nat) (vs : FaissVS R V) : Except ServiceError (List (R × S)) :=
  let k := min topK vs.index.length
  if k = 0 then .ok []
  else ((retriever.search (vs.scores retriever query) k).take k).mapM vs.rowAt

variable [LinearOrder S]

/-- `search_threshold`: the rows strictly between the thresholds, the best first. -/
def searchThreshold (query : V) (low high : S) (vs : FaissVS R V) :
    Except ServiceError (List (R × S)) :=
  if vs.index.length = 0 then .ok []
  else if high ≤ low then .error .thresholdsReversed
  else do
    let hits := retriever.rangeSearch (vs.scores retriever query) low
    let results ← (hits.filter fun hit => !(hit.1 ≤ low || high ≤ hit.1)).mapM vs.rowAt
    return results.mergeSort fun a b => b.2 ≤ a.2

end FaissVS

namespace VectorDBService

def empty : VectorDBService R V := ⟨.empty, .empty⟩

def indexOf (rightTable : List R) : FaissVS R V where
  index := rightTable.map fun row => retriever.encode (retriever.serializeTuple row)
  metadata := rightTable
  aligned := List.length_map _

def buildIndex [DecidableEq R] (cpId : String) (rightTable : List R)
    (service : VectorDBService R V) :
    Except ServiceError (FaissVS R V × VectorDBService R V) :=
  match service.cache.get? cpId with
  | some vs =>
      if service.tableCache.get? cpId = some rightTable then .ok (vs, service)
      else .error .differentTable
  | none =>
      if rightTable.isEmpty then .error .emptyTable
      else
        let vs := indexOf retriever rightTable
        .ok (vs, ⟨service.cache.set cpId vs, service.tableCache.set cpId rightTable⟩)

def indexFor [DecidableEq R] (args : QueryArgs Q R S) (service : VectorDBService R V) :
    Except ServiceError (FaissVS R V × VectorDBService R V) :=
  match args.rightTable with
  | some rightTable => service.buildIndex retriever args.cpId rightTable
  | none =>
      match service.cache.get? args.cpId with
      | some vs => .ok (vs, service)
      | none => .error .noIndex

def search [LinearOrder S] (args : QueryArgs Q R S) (vs : FaissVS R V) :
    Except ServiceError (List (R × S)) :=
  let query := retriever.encode (retriever.queryText args.leftTuple)
  match args.lowThreshold, args.highThreshold, args.topK with
  | some low, some high, _ => vs.searchThreshold retriever query low high
  | none, none, some topK => vs.searchTopK retriever query topK
  | none, none, none => .error .topKMissing
  | _, _, _ => .error .thresholdMissing

/-- `query`; an index that it has built stays, also if the search fails. -/
def query [DecidableEq R] [LinearOrder S] (args : QueryArgs Q R S) (service : VectorDBService R V) :
    Except ServiceError (List (R × S)) × VectorDBService R V :=
  match service.indexFor retriever args with
  | .error e => (.error e, service)
  | .ok (vs, service) => (search retriever args vs, service)

def clearCp (cpId : String) (service : VectorDBService R V) : Bool × VectorDBService R V :=
  ((service.cache.get? cpId).isSome || (service.tableCache.get? cpId).isSome,
    ⟨service.cache.erase cpId, service.tableCache.erase cpId⟩)

end VectorDBService

/-! ## What a search returns -/

namespace FaissVS

variable {retriever}

theorem rowAt_mem {vs : FaissVS R V} {hit : S × Nat} {result : R × S}
    (found : vs.rowAt hit = .ok result) : result.1 ∈ vs.metadata := by
  unfold rowAt at found
  split at found
  · rename_i row present
    cases found
    exact List.mem_of_getElem? present
  · cases found

theorem mapM_rowAt_mem {vs : FaissVS R V} :
    ∀ (hits : List (S × Nat)) {results : List (R × S)}, hits.mapM vs.rowAt = .ok results →
      ∀ result ∈ results, result.1 ∈ vs.metadata := by
  intro hits
  induction hits with
  | nil =>
    intro results found result member
    cases found
    cases member
  | cons hit rest ih =>
    intro results found result member
    rw [List.mapM_cons] at found
    obtain ⟨head, atHead, found⟩ := bind_eq_ok.mp found
    obtain ⟨tail, atTail, found⟩ := bind_eq_ok.mp found
    cases found
    cases List.mem_cons.mp member with
    | inl same =>
      subst same
      exact rowAt_mem atHead
    | inr later => exact ih atTail result later

theorem searchTopK_mem {vs : FaissVS R V} {query : V} {topK : Nat} {results : List (R × S)}
    (found : vs.searchTopK retriever query topK = .ok results) :
    ∀ result ∈ results, result.1 ∈ vs.metadata := by
  unfold searchTopK at found
  simp only at found
  split at found
  · cases found
    intro result member
    cases member
  · exact mapM_rowAt_mem _ found

theorem searchThreshold_mem [LinearOrder S] {vs : FaissVS R V} {query : V} {low high : S}
    {results : List (R × S)} (found : vs.searchThreshold retriever query low high = .ok results) :
    ∀ result ∈ results, result.1 ∈ vs.metadata := by
  unfold searchThreshold at found
  split at found
  · cases found
    intro result member
    cases member
  · split at found
    · cases found
    · obtain ⟨unsorted, atHits, found⟩ := bind_eq_ok.mp found
      cases found
      intro result member
      exact mapM_rowAt_mem _ atHits result ((List.mergeSort_perm unsorted _).mem_iff.mp member)

end FaissVS

namespace VectorDBService

theorem search_mem [LinearOrder S] {args : QueryArgs Q R S} {vs : FaissVS R V}
    {results : List (R × S)} (found : search retriever args vs = .ok results) :
    ∀ result ∈ results, result.1 ∈ vs.metadata := by
  unfold search at found
  simp only at found
  split at found
  · exact FaissVS.searchThreshold_mem found
  · exact FaissVS.searchTopK_mem found
  · cases found
  · cases found

end VectorDBService

def Retriever.RangeExact [LinearOrder S] : Prop :=
  ∀ (scores : List S) (low : S),
    (retriever.rangeSearch scores low).Perm (scores.zipIdx.filter fun hit => low < hit.1)

def Retriever.score (left : Q) (row : R) : S :=
  retriever.innerProduct (retriever.encode (retriever.queryText left))
    (retriever.encode (retriever.serializeTuple row))

namespace FaissVS

def rowsAt (vs : FaissVS R V) (hits : List (S × Nat)) : List (R × S) :=
  hits.filterMap fun hit => vs.metadata[hit.2]?.map (·, hit.1)

theorem mapM_rowAt_eq {vs : FaissVS R V} :
    ∀ hits : List (S × Nat), (∀ hit ∈ hits, hit.2 < vs.metadata.length) →
      hits.mapM vs.rowAt = .ok (vs.rowsAt hits) := by
  intro hits
  induction hits with
  | nil =>
    intro _
    rfl
  | cons hit rest ih =>
    intro inRange
    have present := List.getElem?_eq_getElem (inRange hit List.mem_cons_self)
    have later := ih fun hit member => inRange hit (List.mem_cons_of_mem _ member)
    simp [List.mapM_cons, rowAt, rowsAt, present, later, bind, Except.bind, pure, Except.pure]

end FaissVS

/-- Looking up the positions of the scores that pass gives the rows whose scores pass; `before`
are the rows at the positions already passed. -/
theorem filterMap_zipIdx_scores (score : R → S) (pass : S → Bool) :
    ∀ before rows : List R,
      (((rows.map score).zipIdx before.length).filter fun hit => pass hit.1).filterMap
          (fun hit => (before ++ rows)[hit.2]?.map (·, hit.1)) =
        (rows.filter fun row => pass (score row)).map fun row => (row, score row) := by
  intro before rows
  induction rows generalizing before with
  | nil => rfl
  | cons row rest ih =>
    have later := ih (before ++ [row])
    rw [List.append_assoc, List.singleton_append, List.length_append,
      List.length_singleton] at later
    rw [List.map_cons, List.zipIdx_cons]
    by_cases passes : pass (score row) = true
    · simp [passes, later]
    · simp [passes, later]

namespace VectorDBService

def between [LinearOrder S] (left : Q) (low high : S) (rightTable : List R) : List (R × S) :=
  (rightTable.filter fun row =>
    low < retriever.score left row && retriever.score left row < high).map
      fun row => (row, retriever.score left row)

theorem scores_indexOf (left : Q) (rightTable : List R) :
    (indexOf retriever rightTable).scores retriever (retriever.encode (retriever.queryText left)) =
      rightTable.map (retriever.score left) := by
  simp [FaissVS.scores, indexOf, Retriever.score, Function.comp_def]

/-- The hits that a search by thresholds keeps: its own test of the lower bound changes nothing. -/
theorem rangeSearch_between [LinearOrder S] (exact : retriever.RangeExact) (scores : List S)
    (low high : S) :
    ((retriever.rangeSearch scores low).filter fun hit => !(hit.1 ≤ low || high ≤ hit.1)).Perm
      (scores.zipIdx.filter fun hit => low < hit.1 && hit.1 < high) := by
  have hits := (exact scores low).filter fun hit => !(hit.1 ≤ low || high ≤ hit.1)
  rw [List.filter_filter] at hits
  refine hits.trans (.of_eq (List.filter_congr ?_))
  intro hit _
  by_cases above : low < hit.1
  · have notBelow : ¬ hit.1 ≤ low := not_le.mpr above
    simp [above, notBelow, ← not_le]
  · simp [above]

theorem searchThreshold_indexOf [LinearOrder S] (exact : retriever.RangeExact) (left : Q)
    {low high : S} (ordered : low < high) (rightTable : List R) :
    ∃ results, (indexOf retriever rightTable).searchThreshold retriever
        (retriever.encode (retriever.queryText left)) low high = .ok results ∧
      results.Perm (between retriever left low high rightTable) := by
  unfold FaissVS.searchThreshold
  rw [scores_indexOf]
  split
  · rename_i none
    have empty : rightTable = [] := by simpa [indexOf] using none
    subst empty
    exact ⟨[], rfl, .refl _⟩
  · have hits := rangeSearch_between retriever
      exact (rightTable.map (retriever.score left)) low high
    have inRange : ∀ hit ∈
        (retriever.rangeSearch (rightTable.map (retriever.score left)) low).filter
        (fun hit => !(hit.1 ≤ low || high ≤ hit.1)),
        hit.2 < (indexOf retriever rightTable).metadata.length := by
      intro hit member
      have listed := List.mem_of_mem_filter (hits.mem_iff.mp member)
      simpa [indexOf] using List.snd_lt_of_mem_zipIdx listed
    rw [if_neg (not_le.mpr ordered)]
    simp only [FaissVS.mapM_rowAt_eq _ inRange]
    refine ⟨_, rfl, (List.mergeSort_perm _ _).trans ?_⟩
    have lookedUp := filterMap_zipIdx_scores (retriever.score left)
      (fun score => low < score && score < high) [] rightTable
    exact (hits.filterMap _).trans (.of_eq lookedUp)

/-! ## What a request does to the indexes -/

theorem buildIndex_cache [DecidableEq R] {cpId : String} {rightTable : List R}
    {service after : VectorDBService R V} {vs : FaissVS R V}
    (built : service.buildIndex retriever cpId rightTable = .ok (vs, after)) :
    after.cache.get? cpId = some vs ∧
      ∀ key found, after.cache.get? key = some found →
        service.cache.get? key = some found ∨
          key = cpId ∧ found = indexOf retriever rightTable := by
  unfold buildIndex at built
  split at built
  · rename_i cached
    split at built
    · cases built
      exact ⟨cached, fun key found held => .inl held⟩
    · cases built
  · split at built
    · cases built
    · cases built
      refine ⟨Dict.get?_set_self _ _ _, ?_⟩
      intro key found held
      rw [Dict.get?_set] at held
      split at held
      · rename_i same
        cases held
        exact .inr ⟨same, rfl⟩
      · exact .inl held

end VectorDBService

/-! ## The requests -/

inductive ServiceRequest (Q R S : Type) where
  | buildIndex (cpId : String) (rightTable : List R)
  | query (args : QueryArgs Q R S)
  | clear (cpId : String)

inductive Reply (R S : Type) where
  | indexed (rows : Nat)
  | results (rows : List (R × S))
  | cleared (removed : Bool)
  | failed

def VectorDBService.serve [DecidableEq R] [LinearOrder S] (request : ServiceRequest Q R S)
    (service : VectorDBService R V) : Reply R S × VectorDBService R V :=
  match request with
  | .buildIndex cpId rightTable =>
      match service.buildIndex retriever cpId rightTable with
      | .ok (vs, service) => (.indexed vs.index.length, service)
      | .error _ => (.failed, service)
  | .query args =>
      -- the model of the request has `gt=0` for `top_k`
      if args.topK = some 0 then (.failed, service)
      else match service.query retriever args with
      | (.ok rows, service) => (.results rows, service)
      | (.error _, service) => (.failed, service)
  | .clear cpId =>
      let (removed, service) := service.clearCp cpId
      (.cleared removed, service)

def ServiceRequest.table : ServiceRequest Q R S → Option (String × List R)
  | .buildIndex cpId rightTable => some (cpId, rightTable)
  | .query args => args.rightTable.map (args.cpId, ·)
  | .clear _ => none

namespace VectorDBService

variable [DecidableEq R] [LinearOrder S] {retriever}

omit [LinearOrder S] in
theorem indexFor_cache {args : QueryArgs Q R S} {service after : VectorDBService R V}
    {vs : FaissVS R V} (found : service.indexFor retriever args = .ok (vs, after)) :
    after.cache.get? args.cpId = some vs ∧
      ∀ key held, after.cache.get? key = some held → service.cache.get? key = some held ∨
        ∃ table, (ServiceRequest.query args).table = some (key, table) ∧
          held = indexOf retriever table := by
  unfold indexFor at found
  split at found
  · rename_i rightTable given
    obtain ⟨present, old⟩ := buildIndex_cache retriever found
    refine ⟨present, ?_⟩
    intro key held atKey
    cases old key held atKey with
    | inl before => exact .inl before
    | inr new =>
      refine .inr ⟨rightTable, ?_, new.2⟩
      simp [ServiceRequest.table, given, new.1]
  · split at found
    · rename_i cached
      cases found
      exact ⟨cached, fun key held atKey => .inl atKey⟩
    · cases found

/-- Every index after a request was there before it or is that of the request's table. -/
theorem serve_cache (request : ServiceRequest Q R S) (service : VectorDBService R V) {key : String}
    {vs : FaissVS R V} (held : (service.serve retriever request).2.cache.get? key = some vs) :
    service.cache.get? key = some vs ∨
      ∃ table, request.table = some (key, table) ∧ vs = indexOf retriever table := by
  cases request with
  | buildIndex cpId rightTable =>
    unfold serve at held
    simp only at held
    split at held
    · rename_i built
      cases (buildIndex_cache retriever built).2 key vs held with
      | inl before => exact .inl before
      | inr new => exact .inr ⟨rightTable, by rw [ServiceRequest.table, new.1], new.2⟩
    · exact .inl held
  | query args =>
    unfold serve query at held
    simp only at held
    split at held
    · exact .inl held
    · cases found : service.indexFor retriever args with
      | error e =>
        simp only [found] at held
        exact .inl held
      | ok result =>
        obtain ⟨index, after⟩ := result
        refine (indexFor_cache found).2 key vs ?_
        cases searched : search retriever args index with
        | error e | ok rows => simpa only [found, searched] using held
  | clear cpId => exact .inl (Dict.get?_of_erase held)

/-- The rows of an answer are rows of the index that the service then has for the id. -/
theorem serve_rows {args : QueryArgs Q R S} {service : VectorDBService R V} {rows : List (R × S)}
    (answer : (service.serve retriever (.query args)).1 = .results rows) :
    ∃ vs, (service.serve retriever (.query args)).2.cache.get? args.cpId = some vs ∧
      ∀ row ∈ rows, row.1 ∈ vs.metadata := by
  unfold serve query at answer ⊢
  simp only at answer ⊢
  split at answer
  · cases answer
  · rename_i positive
    rw [if_neg positive]
    cases found : service.indexFor retriever args with
    | error e =>
      simp only [found] at answer
      cases answer
    | ok result =>
      obtain ⟨vs, after⟩ := result
      cases searched : search retriever args vs with
      | error e =>
        simp only [found, searched] at answer
        cases answer
      | ok results =>
        simp only [found, searched] at answer ⊢
        cases answer
        exact ⟨vs, (indexFor_cache found).1, search_mem retriever searched⟩

end VectorDBService

end Kalypso.Query
