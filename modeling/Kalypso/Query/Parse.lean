import Kalypso.Lib.Raise
import Kalypso.Query.PinFlags
import Kalypso.Query.Prompts

/-!
# Parsing a query

`SemanticPlan.parse_ops` turns the nodes of a logical query into physical operators.  A node has a
name and arguments; the name is compared with the names of `OpName` one after the other.  The
test for `sem_classify` is written `name in (OpName.SEM_CLASSIFY)`, with a pair of parentheses
that makes no tuple: it asks whether the name occurs in the text `sem_classify`.

The arguments have the types that the constructors expect.  Reading a table and what the
operators do are parameters.
-/

set_option autoImplicit false

namespace Kalypso.Query

open Kalypso.Lib

/-! ## Names and nodes -/

namespace OpName

def semFilter : Text := .ofString "sem_filter"
def semClassify : Text := .ofString "sem_classify"
def semTopK : Text := .ofString "sem_topk"
def semMap : Text := .ofString "sem_map"
def semAgg : Text := .ofString "sem_agg"
def join : Text := .ofString "join"
def cartesianProduct : Text := .ofString "cp"
def indexedSearch : Text := .ofString "indexed_search"

def parsed : List Text :=
  [semFilter, semMap, semClassify, semAgg, semTopK, join, cartesianProduct, indexedSearch]

end OpName

/-- The arguments of a node; a key that is missing, or has no value, is `none`. -/
structure OpArgs where
  prompt : Option Text := none
  instruction : Option Text := none
  classes : Option (List Text) := none
  k : Option Int := none
  rightTable : Option Text := none
  cascade : Bool := false
  llmCascade : Bool := false
  cascadeMaxTokens : Option Nat := none
  /-- `some none` if the key is there without a value -/
  cascadeLowThreshold : Option (Option ℚ) := none
  cascadeHighThreshold : Option (Option ℚ) := none
  lowThreshold : Option ℚ := none
  highThreshold : Option ℚ := none
  icp : Bool := false
  icpOracleFallback : Bool := false
  icpTopK : Option Nat := none
  icpLowThreshold : Option ℚ := none
  icpHighThreshold : Option ℚ := none
  icpCpId : Option Text := none
  icpOracleInstruction : Option Text := none
  icpOracleMaxTokens : Option Nat := none

structure LogicalNode where
  op : Text
  args : OpArgs

inductive ParseError where
  | keyError (key : String)
  | valueError (message : Text)
  /-- `max` of no values -/
  | emptyMax
  /-- the right table cannot be read -/
  | unreadable (path : Text)
  | assertionError

inductive BuiltOp where
  | chain (op : ChainOperator)
  | semMap (instruction : Text) (position : Int)
  | icpFilter (instruction : Text) (thresholds : Thresholds) (maxTokens : Nat) (position : Int)
  | indexedSearch (rightTable : List SemanticInput) (topK : Nat) (low high : Option ℚ)
      (cpId : Option Text) (position : Int)
  | semAgg (instruction : Text) (position : Int)
  | semTopK (instruction : Text) (k : Int) (position : Int)
  | cartesianProduct (rightTable : List SemanticInput) (position : Int)
  | indexedCartesianProduct (rightTable : List SemanticInput) (topK : Nat) (low high : Option ℚ)
      (cpId : Option Text) (position : Int)

structure ParseEnv where
  virtualPinning : Bool
  tokenizer : Tokenizer
  /-- `list(data._data_source(None, path, None))` -/
  readTable : Text → Option (List SemanticInput)
  estimateTokens : BuiltOp → MapRatios → SemContext TupleData → Nat
  product : BuiltOp → ProductOp
  reducer : BuiltOp → ReducerOp

/-! ## The constructors that may raise -/

def require {α : Type} (key : String) : Option α → Except ParseError α
  | some value => .ok value
  | none => .error (.keyError key)

def cascadeThresholds : Option ℚ → Option ℚ → Except ParseError (Option Thresholds)
  | none, none => .ok none
  | some low, some high =>
      if ordered : low ≤ high then .ok (some ⟨low, high, ordered⟩)
      else .error (.valueError (.ofString "low_threshold must be <= high_threshold."))
  | _, _ =>
      .error (.valueError
        (.ofString "low_threshold and high_threshold must be provided together."))

def icpThresholds : Option ℚ → Option ℚ → Except ParseError Thresholds
  | some low, some high =>
      if ordered : low ≤ high then .ok ⟨low, high, ordered⟩
      else .error (.valueError
        (.ofString "ICPFilter requires low_threshold <= high_threshold."))
  | _, _ =>
      .error (.valueError
        (.ofString "ICPFilter requires both low_threshold and high_threshold."))

namespace OpArgs

def cascades (args : OpArgs) : Bool := args.cascade || args.llmCascade

def cascadeLow (args : OpArgs) : Option ℚ := args.cascadeLowThreshold.getD args.lowThreshold

def cascadeHigh (args : OpArgs) : Option ℚ := args.cascadeHighThreshold.getD args.highThreshold

/-- `args.get("icp_oracle_instruction") or args.get("instruction")`, if that is not empty. -/
def oracleInstruction (args : OpArgs) : Option Text :=
  (args.icpOracleInstruction.filter (· ≠ [])).or (args.instruction.filter (· ≠ []))

end OpArgs

def cascadeOperator (args : OpArgs) (instruction : Text) (position : Int) :
    Except ParseError BuiltOp := do
  let thresholds ← cascadeThresholds args.cascadeLow args.cascadeHigh
  pure (.chain
    { chainClass := .cascadeOperator false thresholds
      instruction := instruction
      maxTokens := args.cascadeMaxTokens.getD 8
      position := position })

def icpFilter (args : OpArgs) (missing : Text) (position : Int) : Except ParseError BuiltOp :=
  match args.oracleInstruction with
  | none => .error (.valueError missing)
  | some instruction => do
      let thresholds ← icpThresholds args.icpLowThreshold args.icpHighThreshold
      pure (.icpFilter instruction thresholds (args.icpOracleMaxTokens.getD 8) position)

/-! ## `parse_ops` -/

namespace ParseEnv

variable (env : ParseEnv)

def rightTable (args : OpArgs) : Except ParseError (List SemanticInput) :=
  match args.rightTable with
  | none => .ok []
  | some path =>
      match env.readTable path with
      | none => .error (.unreadable path)
      | some rows => .ok rows

def productOf (args : OpArgs) (rows : List SemanticInput) (position : Int) : BuiltOp :=
  if args.icp then
    .indexedCartesianProduct rows (args.icpTopK.getD 5) args.icpLowThreshold args.icpHighThreshold
      args.icpCpId position
  else .cartesianProduct rows position

def joinFilter (args : OpArgs) (position : Int) : Except ParseError BuiltOp :=
  if args.cascades then do
    let instruction ← require "instruction" args.instruction
    cascadeOperator args instruction position
  else if args.icp && args.icpLowThreshold.isSome && args.icpHighThreshold.isSome then
    icpFilter args
      (.ofString "ICP join filtering requires instruction or icp_oracle_instruction.") position
  else do
    let instruction ← require "instruction" args.instruction
    pure (.chain (semFilter instruction position))

def parseNode (position : Int) (node : LogicalNode) : Except ParseError (List BuiltOp) :=
  let args := node.args
  if node.op = OpName.semFilter then do
    let prompt ← require "prompt" args.prompt
    if args.cascades then
      let op ← cascadeOperator args prompt position
      pure [op]
    else
      pure [.chain (semFilter prompt position)]
  else if node.op = OpName.semMap then do
    let prompt ← require "prompt" args.prompt
    pure [.semMap prompt position]
  else if node.op.OccursIn OpName.semClassify then do
    let classes ← require "classes" args.classes
    match semClassify env.tokenizer classes position with
    | none => .error .emptyMax
    | some op => pure [.chain op]
  else if node.op = OpName.semAgg then do
    let instruction ← require "instruction" args.instruction
    pure [.semAgg instruction position]
  else if node.op = OpName.semTopK then do
    let instruction ← require "instruction" args.instruction
    let k ← require "k" args.k
    pure [.semTopK instruction k position]
  else if node.op = OpName.join then do
    let rows ← env.rightTable args
    let filter ← joinFilter args position
    pure [productOf args rows position, filter]
  else if node.op = OpName.cartesianProduct then do
    let rows ← env.rightTable args
    if args.icpOracleFallback then
      let filter ← icpFilter args
        (.ofString ("icp_oracle_fallback requires icp_oracle_instruction or instruction for a " ++
          "follow-up SemFilter.")) position
      pure [productOf args rows position, filter]
    else
      pure [productOf args rows position]
  else if node.op = OpName.indexedSearch then do
    let rows ← env.rightTable args
    pure [.indexedSearch rows (args.icpTopK.getD 5) args.icpLowThreshold args.icpHighThreshold
      args.icpCpId position]
  else .error (.valueError (.ofString "Unknown op: " ++ node.op))

def parseNodes : Nat → List LogicalNode → Except ParseError (List BuiltOp)
  | _, [] => .ok []
  | idx, node :: rest => do
      let ops ← env.parseNode idx node
      let others ← parseNodes (idx + 1) rest
      pure (ops ++ others)

def tupleOp (op : BuiltOp) (opClass : OpClass) (position : Int) (predicate : Bool) : PhysicalOp :=
  .tuple
    { opClass := opClass
      position := position
      predicate := predicate
      estimateTokens := env.estimateTokens op }

def toPhysical (op : BuiltOp) : PhysicalOp :=
  match op with
  | .chain chainOp => .tuple { chainOp.toOperator with estimateTokens := env.estimateTokens op }
  | .semMap _ position => env.tupleOp op .semMap position false
  | .icpFilter _ thresholds _ position => env.tupleOp op (.icpFilter thresholds) position true
  | .indexedSearch _ _ _ _ _ position => env.tupleOp op .indexedSearch position false
  | .semAgg _ _ => .blocking (env.reducer op)
  | .semTopK _ _ _ => .blocking (env.reducer op)
  | .cartesianProduct _ _ => .join (env.product op)
  | .indexedCartesianProduct _ _ _ _ _ _ => .join (env.product op)

def oneFlag : PhysicalOp → Bool
  | .tuple op => !(op.pin && op.unpin)
  | _ => true

def parseOps (nodes : List LogicalNode) : Except ParseError (List PhysicalOp) := do
  let built ← env.parseNodes 0 nodes
  let flagged := applyPinUnpin env.virtualPinning (built.map env.toPhysical)
  if flagged.all oneFlag then pure flagged else .error .assertionError

end ParseEnv

/-! ## The assertion holds -/

theorem scanChains_oneFlag (rest : List PhysicalOp) : ∀ chain : List SemOperator,
    (∀ op ∈ chain, op.Unflagged) → (∀ op, .tuple op ∈ rest → op.Unflagged) →
      ∀ op ∈ scanChains chain rest, ParseEnv.oneFlag op = true := by
  have none : ∀ op ∈ ([] : List SemOperator), op.Unflagged := fun op member => nomatch member
  induction rest with
  | nil =>
    intro chain _ _ op member
    cases member
  | cons head rest ih =>
    intro chain plain plainRest op member
    have plainTail : ∀ op, .tuple op ∈ rest → op.Unflagged :=
      fun op member => plainRest op (List.mem_cons_of_mem _ member)
    cases head with
    | join product | blocking reducer =>
      cases List.mem_cons.mp member with
      | inl isHead =>
        rw [isHead]
        rfl
      | inr later => exact ih [] none plainTail op later
    | tuple inner =>
      have longer : ∀ op ∈ chain ++ [inner], op.Unflagged := by
        intro other inChain
        cases List.mem_append.mp inChain with
        | inl old => exact plain other old
        | inr new =>
          rw [List.mem_singleton.mp new]
          exact plainRest inner List.mem_cons_self
      by_cases goesOn : ∃ other, rest.head? = some (.tuple other)
      · obtain ⟨other, isNext⟩ := goesOn
        have same : scanChains chain (.tuple inner :: rest) =
            scanChains (chain ++ [inner]) rest := by
          rw [scanChains, isNext]
          rfl
        rw [same] at member
        exact ih (chain ++ [inner]) longer plainTail op member
      · rw [scanChains_boundary chain inner rest (fun other isNext => goesOn ⟨other, isNext⟩),
          List.mem_append] at member
        cases member with
        | inl ended =>
          obtain ⟨own, isOwn, rfl⟩ := List.mem_map.mp ended
          rw [ParseEnv.oneFlag, Bool.not_eq_true', ← Bool.not_eq_true, Bool.and_eq_true]
          exact (finalizeChain_runFlags (by simp) longer).exclusive own isOwn
        | inr later => exact ih [] none plainTail op later

theorem applyPinUnpin_oneFlag (virtualPinning : Bool) (ops : List PhysicalOp) :
    (applyPinUnpin virtualPinning ops).all ParseEnv.oneFlag = true := by
  have reset : ∀ op, .tuple op ∈ ops.map PhysicalOp.reset → op.Unflagged := by
    intro op member
    obtain ⟨original, _, same⟩ := List.mem_map.mp member
    cases original with
    | tuple inner =>
      cases same
      exact ⟨rfl, rfl⟩
    | join product => cases same
    | blocking reducer => cases same
  rw [List.all_eq_true]
  unfold applyPinUnpin
  split
  · exact scanChains_oneFlag _ [] (fun op member => nomatch member) reset
  · intro op member
    cases op with
    | tuple inner =>
      rw [ParseEnv.oneFlag, (reset inner member).1]
      rfl
    | join product => rfl
    | blocking reducer => rfl

/-! ## What a node needs -/

namespace OpArgs

def CascadeReady (args : OpArgs) : Prop :=
  (args.cascadeLow = none ∧ args.cascadeHigh = none) ∨
    ∃ low high, args.cascadeLow = some low ∧ args.cascadeHigh = some high ∧ low ≤ high

def IcpReady (args : OpArgs) : Prop :=
  args.oracleInstruction.isSome ∧
    ∃ low high, args.icpLowThreshold = some low ∧ args.icpHighThreshold = some high ∧ low ≤ high

def JoinReady (args : OpArgs) : Prop :=
  if args.cascades then args.instruction.isSome ∧ args.CascadeReady
  else if args.icp && args.icpLowThreshold.isSome && args.icpHighThreshold.isSome then
    args.IcpReady
  else args.instruction.isSome

def TableReadable (env : ParseEnv) (args : OpArgs) : Prop :=
  ∀ path, args.rightTable = some path → (env.readTable path).isSome

end OpArgs

/-- The arguments that the branch for the node's name needs, if there is one. -/
def LogicalNode.Complete (env : ParseEnv) (node : LogicalNode) : Prop :=
  let args := node.args
  if node.op = OpName.semFilter then args.prompt.isSome ∧ (args.cascades → args.CascadeReady)
  else if node.op = OpName.semMap then args.prompt.isSome = true
  else if node.op.OccursIn OpName.semClassify then
    ∃ classes, args.classes = some classes ∧ classes ≠ []
  else if node.op = OpName.semAgg then args.instruction.isSome = true
  else if node.op = OpName.semTopK then args.instruction.isSome ∧ args.k.isSome
  else if node.op = OpName.join then args.TableReadable env ∧ args.JoinReady
  else if node.op = OpName.cartesianProduct then
    args.TableReadable env ∧ (args.icpOracleFallback → args.IcpReady)
  else node.op = OpName.indexedSearch ∧ args.TableReadable env

@[simp] theorem returns_require {α : Type} {key : String} {value : Option α} :
    Returns (require key value) ↔ value.isSome := by
  cases value with
  | none => simp [require]
  | some value => simp [require]

theorem returns_cascadeOperator {args : OpArgs} {instruction : Text} {position : Int} :
    Returns (cascadeOperator args instruction position) ↔ args.CascadeReady := by
  refine returns_bind_pure.trans ?_
  unfold OpArgs.CascadeReady
  cases args.cascadeLow with
  | none =>
    cases args.cascadeHigh with
    | none => simp [cascadeThresholds]
    | some high => simp [cascadeThresholds]
  | some low =>
    cases args.cascadeHigh with
    | none => simp [cascadeThresholds]
    | some high =>
      by_cases ordered : low ≤ high
      · simp [cascadeThresholds, ordered]
      · simp [cascadeThresholds, ordered]

theorem returns_icpThresholds {low high : Option ℚ} :
    Returns (icpThresholds low high) ↔ ∃ l h, low = some l ∧ high = some h ∧ l ≤ h := by
  cases low with
  | none => simp [icpThresholds]
  | some l =>
    cases high with
    | none => simp [icpThresholds]
    | some h =>
      by_cases ordered : l ≤ h
      · simp [icpThresholds, ordered]
      · simp [icpThresholds, ordered]

theorem returns_icpFilter {args : OpArgs} {missing : Text} {position : Int} :
    Returns (icpFilter args missing position) ↔ args.IcpReady := by
  unfold icpFilter OpArgs.IcpReady
  cases args.oracleInstruction with
  | none => simp
  | some instruction =>
    refine (returns_bind_pure.trans returns_icpThresholds).trans ?_
    simp

namespace ParseEnv

variable {env : ParseEnv}

theorem returns_rightTable {args : OpArgs} :
    Returns (env.rightTable args) ↔ args.TableReadable env := by
  unfold rightTable OpArgs.TableReadable
  cases args.rightTable with
  | none => simp
  | some path =>
    cases read : env.readTable path with
    | none => simp [read]
    | some rows => simp [read]

theorem returns_joinFilter {args : OpArgs} {position : Int} :
    Returns (joinFilter args position) ↔ args.JoinReady := by
  unfold joinFilter OpArgs.JoinReady
  split
  · rw [returns_bind_iff fun instruction => returns_cascadeOperator, returns_require]
  · split
    · exact returns_icpFilter
    · exact returns_bind_pure.trans returns_require

end ParseEnv

namespace ParseEnv

variable {env : ParseEnv}

theorem semClassify_isSome (tokenizer : Tokenizer) (classes : List Text) (position : Int) :
    (semClassify tokenizer classes position).isSome ↔ classes ≠ [] := by
  unfold semClassify
  cases classes with
  | nil => simp
  | cons name rest => simp

theorem returns_classify {args : OpArgs} {position : Int} :
    Returns (do
      let classes ← require "classes" args.classes
      match semClassify env.tokenizer classes position with
      | none => .error .emptyMax
      | some op => pure [BuiltOp.chain op]) ↔
      ∃ classes, args.classes = some classes ∧ classes ≠ [] := by
  cases args.classes with
  | none =>
    rw [returns_bind]
    simp [require]
  | some classes =>
    rw [returns_bind]
    simp only [require, Except.ok.injEq, exists_eq_left', Option.some.injEq,
      ← semClassify_isSome env.tokenizer classes position]
    cases semClassify env.tokenizer classes position with
    | none => simp
    | some op => simp [pure, Except.pure]

theorem returns_parseNode {position : Int} {node : LogicalNode} :
    Returns (env.parseNode position node) ↔ node.Complete env := by
  unfold parseNode LogicalNode.Complete
  dsimp only
  split
  · by_cases cascades : node.args.cascades = true
    · simp only [cascades, if_true, forall_const]
      rw [returns_bind_iff fun prompt => returns_bind_pure.trans returns_cascadeOperator,
        returns_require]
    · simp only [cascades, Bool.false_eq_true, if_false, false_imp_iff, and_true]
      exact returns_bind_pure.trans returns_require
  · split
    · exact returns_bind_pure.trans returns_require
    · split
      · exact returns_classify
      · split
        · exact returns_bind_pure.trans returns_require
        · split
          · rw [returns_bind_iff fun instruction => returns_bind_pure.trans returns_require,
              returns_require]
          · split
            · rw [returns_bind_iff fun rows => returns_bind_pure.trans returns_joinFilter,
                returns_rightTable]
            · split
              · by_cases fallback : node.args.icpOracleFallback = true
                · simp only [fallback, if_true, forall_const]
                  rw [returns_bind_iff fun rows => returns_bind_pure.trans returns_icpFilter,
                    returns_rightTable]
                · simp only [fallback, Bool.false_eq_true, if_false, false_imp_iff, and_true]
                  exact returns_bind_pure.trans returns_rightTable
              · split
                · rename_i isSearch
                  rw [and_iff_right isSearch]
                  exact returns_bind_pure.trans returns_rightTable
                · rename_i notSearch
                  exact iff_of_false (not_returns_error _) fun complete => notSearch complete.1

theorem returns_parseNodes {nodes : List LogicalNode} : ∀ {idx : Nat},
    Returns (env.parseNodes idx nodes) ↔ ∀ node ∈ nodes, node.Complete env := by
  induction nodes with
  | nil => simp [parseNodes]
  | cons node rest ih =>
    intro idx
    rw [parseNodes, returns_bind_iff fun ops => returns_bind_pure.trans ih, returns_parseNode,
      List.forall_mem_cons]

/-- `parse_ops` returns exactly if every node has the arguments that its name asks for. -/
theorem returns_parseOps {nodes : List LogicalNode} :
    Returns (env.parseOps nodes) ↔ ∀ node ∈ nodes, node.Complete env := by
  unfold parseOps
  simp only [applyPinUnpin_oneFlag, if_true]
  exact returns_bind_pure.trans returns_parseNodes

end ParseEnv

/-! ## The names that are accepted -/

def Misread (name : Text) : Prop := name ∉ OpName.parsed ∧ name.OccursIn OpName.semClassify

theorem LogicalNode.Complete.name {env : ParseEnv} {node : LogicalNode}
    (complete : node.Complete env) :
    node.op ∈ OpName.parsed ∨ node.op.OccursIn OpName.semClassify := by
  by_contra neither
  obtain ⟨unknown, notPart⟩ := not_or.mp neither
  simp only [OpName.parsed, List.mem_cons, not_or] at unknown
  obtain ⟨notFilter, notMap, _, notAgg, notTopK, notJoin, notProduct, notSearch, _⟩ := unknown
  unfold LogicalNode.Complete at complete
  dsimp only at complete
  rw [if_neg notFilter, if_neg notMap, if_neg notPart, if_neg notAgg, if_neg notTopK,
    if_neg notJoin, if_neg notProduct] at complete
  exact notSearch complete.1

/-- That `parse_ops` returns only for the names of operators fails exactly for the queries of
complete nodes in which a name is a part of `sem_classify`. -/
theorem parseOps_names_iff (env : ParseEnv) (nodes : List LogicalNode) :
    (∀ ops, env.parseOps nodes = .ok ops → ∀ node ∈ nodes, node.op ∈ OpName.parsed) ↔
      (∃ node ∈ nodes, ¬ node.Complete env) ∨ ∀ node ∈ nodes, ¬ Misread node.op := by
  by_cases complete : ∀ node ∈ nodes, node.Complete env
  · obtain ⟨ops, returned⟩ := ParseEnv.returns_parseOps.mpr complete
    constructor
    · intro only
      right
      intro node member misread
      exact misread.1 (only ops returned node member)
    · intro holds other _ node member
      cases holds with
      | inl incomplete =>
        obtain ⟨bad, isNode, lacks⟩ := incomplete
        exact absurd (complete bad isNode) lacks
      | inr read =>
        by_contra unknown
        have part := (complete node member).name.resolve_left unknown
        exact read node member ⟨unknown, part⟩
  · constructor
    · intro _
      left
      obtain ⟨node, lacks⟩ := not_forall.mp complete
      exact ⟨node, Classical.not_imp.mp lacks⟩
    · intro _ ops returned
      exact absurd (ParseEnv.returns_parseOps.mp ⟨ops, returned⟩) complete

def idleEnv : ParseEnv where
  virtualPinning := true
  tokenizer := characters
  readTable := fun _ => none
  estimateTokens := fun _ _ _ => 0
  product := fun _ => ⟨fun _ => [], none⟩
  reducer := fun _ => ⟨id, fun _ _ member => Or.inl member⟩

/-- A query with a misspelled name and the argument of a classification. -/
def misspelledQuery : List LogicalNode :=
  [⟨.ofString "sem_class", { classes := some [.ofString "news", .ofString "sport"] }⟩]

/-- The name `sem_class` is no operator, and the query is accepted. -/
theorem sem_class_accepted :
    ∃ ops, idleEnv.parseOps misspelledQuery = .ok ops ∧
      ¬ ∀ node ∈ misspelledQuery, node.op ∈ OpName.parsed := by
  decide +kernel

end Kalypso.Query
