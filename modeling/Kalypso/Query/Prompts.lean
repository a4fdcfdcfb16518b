import Kalypso.Query.Operators

/-!
# Prompts of filters and classifications

`prompt_utils.py`, and what `SemFilter`, `CascadeOperator` and `SemClassify` do with the messages
of a tuple.  Each of them builds its prompt from the messages, sends it, and leaves the messages
of the prompt without its last one, the task, to the next operator.  A stage estimates the
budget of a task from the prompts that its operators build on the tuple as it is admitted.

The tokenizer and its chat template are parameters.
-/

set_option autoImplicit false

namespace Kalypso.Query

open Kalypso.Lib

/-! ## Messages -/

structure Message where
  role : Text
  type : Text
  content : Text
deriving DecidableEq

def systemRole : Text := ['s', 'y', 's', 't', 'e', 'm']

def userRole : Text := ['u', 's', 'e', 'r']

def textType : Text := ['t', 'e', 'x', 't']

inductive PromptTask where
  | semFilter
  | semMap
  | semAgg
  | semTopK
  | semJoin
  | semClassify
deriving DecidableEq

def systemPrompt : Text :=
  .ofString ("You are a helpful assistant for executing semantic operators.\n" ++
    "You will be given data and an operation description.\n" ++
    "Apply the operation to the provided data exactly as specified and return only the " ++
    "required result.\n")

def buildOperationPrompt (instruction : Text) : PromptTask → Text
  | .semFilter =>
      .ofString ("You will be presented with a context and a filter condition. Output TRUE if " ++
        "the context satisfies the filter condition, and FALSE otherwise.\n" ++
        "Remember, your answer must be TRUE or FALSE. Finish your response with a newline " ++
        "character\n" ++
        "Output TRUE or FALSE only.\n" ++
        "Condition:") ++ instruction ++ .ofString "\n"
  | .semMap =>
      .ofString ("You  are presented with a context and a mapping instruction.\n" ++
        "Apply the instruction to the context and produce the mapped output.\n" ++
        "The output must strictly follow the instruction and contain no extra commentary.\n" ++
        "Map Instruction:") ++ instruction ++ .ofString "\n"
  | .semAgg =>
      .ofString ("You are presented with multiple contexts.\n" ++
        "Aggregate them according to the aggregation instruction.\n" ++
        "The output must be a single aggregated result.\n" ++
        "Do not include explanations or commentary.\n" ++
        "Instruction:") ++ instruction ++ .ofString "\n"
  | .semTopK =>
      .ofString ("You are presented with two contexts.\n" ++
        "Compare the two contexts according to the ranking instruction.\n" ++
        "Choose the better context.\n" ++
        "Answer with 'A' or 'B' only.\n" ++
        "Instruction:") ++ instruction ++ .ofString "\n"
  | .semJoin =>
      .ofString ("You are presented with two contexts.\n" ++
        "Determine whether the two contexts A, B together satisfy the condition.\n" ++
        "Remember, your answer must be TRUE or FALSE. Finish your response with a newline " ++
        "character\n" ++
        "The output must strictly follow the condition and contain no extra commentary.\n" ++
        "Condition:") ++ instruction ++ .ofString "\n"
  | .semClassify =>
      .ofString ("You are presented with a context and a classification instruction.\n" ++
        "Classify the context into exactly one of the provided groups.\n" ++
        "The output must be one group name only.\n" ++
        "Do not include explanations or extra text.\n" ++
        "Instruction:") ++ instruction ++ .ofString "\n"

def getSystemPrompt : List Message := [⟨systemRole, textType, systemPrompt⟩]

def getTaskPrompt (instruction : Text) (task : PromptTask) : List Message :=
  [⟨userRole, textType,
    .ofString "TASK:\n" ++ buildOperationPrompt instruction task ++
      .ofString "\n\nANSWER:\n"⟩]

def startsWithSystem : List Message → Bool
  | [] => false
  | first :: _ => first.role.contains systemRole

def dataPrompt (data : List Message) : List Message :=
  if startsWithSystem data then data else getSystemPrompt ++ data

def getPrompt (instruction : Text) (data : List Message) (task : PromptTask) : List Message :=
  if startsWithSystem data then data ++ getTaskPrompt instruction task
  else getSystemPrompt ++ data ++ getTaskPrompt instruction task

theorem getPrompt_eq (instruction : Text) (data : List Message) (task : PromptTask) :
    getPrompt instruction data task = dataPrompt data ++ getTaskPrompt instruction task := by
  unfold getPrompt dataPrompt
  split
  · rfl
  · rfl

theorem dropLast_getPrompt (instruction : Text) (data : List Message) (task : PromptTask) :
    (getPrompt instruction data task).dropLast = dataPrompt data := by
  rw [getPrompt_eq, getTaskPrompt, List.dropLast_concat]

theorem startsWithSystem_dataPrompt (data : List Message) :
    startsWithSystem (dataPrompt data) = true := by
  unfold dataPrompt
  split
  · assumption
  · change Text.contains systemRole systemRole = true
    decide

theorem dataPrompt_dataPrompt (data : List Message) :
    dataPrompt (dataPrompt data) = dataPrompt data :=
  if_pos (startsWithSystem_dataPrompt data)

theorem dataPrompt_ne_nil {data : List Message} (nonempty : data ≠ []) : dataPrompt data ≠ [] := by
  unfold dataPrompt
  split
  · exact nonempty
  · exact List.cons_ne_nil _ _

/-- The messages of a tuple.  The first of them is looked at without a check, so there is one. -/
structure SemanticInput where
  data : List Message
  rightData : List Message
  nonempty : data ≠ []

/-- The input that a reader of the data makes of a text: the message of `get_data_prompt`. -/
def SemanticInput.ofText (content : Text) : SemanticInput where
  data :=
    [⟨userRole, textType,
      .ofString "CONTEXT:\n  \x7b\n    \"text\": " ++ content ++ .ofString "\n  \x7d\n"⟩]
  rightData := []
  nonempty := List.cons_ne_nil _ _

/-! ## Operators -/

structure Tokenizer where
  tokenLength : Text → Nat
  applyChatTemplate : List Message → Text

def Tokenizer.promptTokens (tokenizer : Tokenizer) (prompt : List Message) : Nat :=
  tokenizer.tokenLength (tokenizer.applyChatTemplate prompt)

inductive ChainClass where
  | semFilter (negate : Bool)
  | cascadeOperator (negate : Bool) (thresholds : Option Thresholds)
  | semClassify (classes : List Text)

structure ChainOperator where
  chainClass : ChainClass
  instruction : Text
  maxTokens : Nat
  position : Int := -1
  predicate : Bool := true
  pin : Bool := false
  unpin : Bool := false

def semFilter (instruction : Text) (position : Int) : ChainOperator where
  chainClass := .semFilter false
  instruction := instruction
  maxTokens := 8
  position := position

def commaSeparated : List Text → Text
  | [] => .ofString ""
  | [name] => name
  | name :: rest => name ++ .ofString ", " ++ commaSeparated rest

/-- `SemClassify.__init__`; `none` if `max` finds no class. -/
def semClassify (tokenizer : Tokenizer) (classes : List Text) (position : Int) :
    Option ChainOperator :=
  (classes.map tokenizer.tokenLength).max?.map fun longest =>
    { chainClass := .semClassify classes
      instruction :=
        .ofString "\n\nChoose exactly one class from the list below.\nClass: " ++
          commaSeparated classes ++ .ofString "\nAnswer with the class name only:"
      maxTokens := longest + 1
      position := position
      predicate := false }

/-- The class that `SemClassify` records for an answer, with the conversion to lower case of the
names: the first one whose name occurs in the answer, or the empty text. -/
def classOf (lower : Text → Text) (classes : List Text) (groupOutput : Text) : Text :=
  (classes.find? fun name => groupOutput.contains (lower name)).getD []

structure ChainTuple where
  state : TupleData
  input : SemanticInput
  groups : List Text

inductive RequestKind where
  | filter
  | cascade
  /-- the request of `SemClassify` for the data part, which only pins -/
  | dataPart
  | classify
deriving DecidableEq

structure ModelCall where
  kind : RequestKind
  prompt : List Message
  maxTokens : Nat
deriving DecidableEq

def ModelCall.tokens (tokenizer : Tokenizer) (call : ModelCall) : Nat :=
  tokenizer.promptTokens call.prompt + call.maxTokens

open ChainOperator

namespace ChainOperator

def toOperator (op : ChainOperator) : SemOperator where
  opClass :=
    match op.chainClass with
    | .semFilter negate => .semFilter negate
    | .cascadeOperator negate thresholds => .cascadeOperator negate thresholds
    | .semClassify _ => .semClassify
  position := op.position
  predicate := op.predicate
  pin := op.pin
  unpin := op.unpin
  -- an estimate needs the messages: `estimateTokens`
  estimateTokens := fun _ _ => 0

def buildPrompts (op : ChainOperator) (input : SemanticInput) : List Message × List Message :=
  match op.chainClass with
  | .semClassify _ =>
      (dataPrompt input.data, getPrompt op.instruction input.data .semFilter)
  | _ =>
      if input.rightData = [] then
        (dataPrompt input.data, getPrompt op.instruction input.data .semFilter)
      else
        (dataPrompt (input.data ++ input.rightData),
          getPrompt op.instruction (input.data ++ input.rightData) .semJoin)

def estimateTokens (tokenizer : Tokenizer) (op : ChainOperator) (input : SemanticInput) : Nat :=
  tokenizer.promptTokens (op.buildPrompts input).2 + op.maxTokens

theorem dropLast_buildPrompts (op : ChainOperator) (input : SemanticInput) :
    (op.buildPrompts input).2.dropLast = (op.buildPrompts input).1 := by
  unfold buildPrompts
  split
  · exact dropLast_getPrompt _ _ _
  · split
    · exact dropLast_getPrompt _ _ _
    · exact dropLast_getPrompt _ _ _

theorem buildPrompts_fst_ne_nil (op : ChainOperator) (input : SemanticInput) :
    (op.buildPrompts input).1 ≠ [] := by
  unfold buildPrompts
  split
  · exact dataPrompt_ne_nil input.nonempty
  · split
    · exact dataPrompt_ne_nil input.nonempty
    · exact dataPrompt_ne_nil (List.append_ne_nil_of_left_ne_nil input.nonempty _)

/-- The messages that the operator leaves behind: `ctx.input.data = prompt[:-1]`, and a filter
has used up the right side. -/
def rewrites (op : ChainOperator) (input : SemanticInput) : SemanticInput where
  data := (op.buildPrompts input).2.dropLast
  rightData :=
    match op.chainClass with
    | .semClassify _ => input.rightData
    | _ => []
  nonempty := by
    rw [dropLast_buildPrompts]
    exact op.buildPrompts_fst_ne_nil input

def inner (ctx : SemContext ChainTuple) : SemContext TupleData := ⟨ctx.data.state, ctx.pinReqId⟩

def groupOutput (ctx : SemContext ChainTuple) : Text :=
  normalized (ctx.data.state.responses (ctx.data.state.asked + 1)).completion.text

def leaves (op : ChainOperator) (ctx : SemContext ChainTuple) (after : SemContext TupleData) :
    SemContext ChainTuple where
  data :=
    { state := after.data
      input := op.rewrites ctx.data.input
      groups :=
        match op.chainClass with
        | .semClassify classes =>
            ctx.data.groups ++ [classOf Text.lower classes (groupOutput ctx)]
        | _ => ctx.data.groups }
  pinReqId := after.pinReqId

def call (op : ChainOperator) (ctx : SemContext ChainTuple) : OpResult ChainTuple :=
  match op.toOperator.result (inner ctx) with
  | .keepGoing after => .keepGoing (op.leaves ctx after)
  | .drop => .drop
  | .retry after => .retry (op.leaves ctx after)
  | .raise => .raise

/-- The helper's answer does not decide, so `CascadeOperator` asks the main model. -/
def fallsBack (thresholds : Option Thresholds) (ctx : SemContext ChainTuple) : Bool :=
  match thresholds with
  | none => false
  | some thresholds =>
      (SemOperator.resolveWithThresholds thresholds
        (ctx.data.state.responses ctx.data.state.asked).helperProbs).isNone

def modelCalls (op : ChainOperator) (ctx : SemContext ChainTuple) : List ModelCall :=
  let (dataPart, prompt) := op.buildPrompts ctx.data.input
  match op.chainClass with
  | .semFilter _ => [⟨.filter, prompt, op.maxTokens⟩]
  | .cascadeOperator _ thresholds =>
      ⟨.cascade, prompt, op.maxTokens⟩ ::
        if fallsBack thresholds ctx then [⟨.cascade, prompt, op.maxTokens⟩] else []
  | .semClassify _ => [⟨.dataPart, dataPart, 1⟩, ⟨.classify, prompt, op.maxTokens⟩]

theorem toOperator_ne_semMap (op : ChainOperator) : op.toOperator.opClass ≠ .semMap := by
  unfold toOperator
  cases op.chainClass with
  | semFilter negate | cascadeOperator negate thresholds | semClassify classes =>
    exact fun same => nomatch same

theorem call_ne_retry (op : ChainOperator) (ctx later : SemContext ChainTuple) :
    op.call ctx ≠ .retry later := by
  intro retry
  unfold call at retry
  split at retry
  · cases retry
  · cases retry
  · rename_i after result
    obtain ⟨again, _⟩ := SemOperator.result_retry result
    exact op.toOperator_ne_semMap (SemOperator.callMap_of_retry again).1
  · cases retry

def toTupleOp (tokenizer : Tokenizer) (op : ChainOperator) : TupleOp ChainTuple where
  call := op.call
  estimateTokens := fun _ ctx => op.estimateTokens tokenizer ctx.data.input
  retries_finite := ⟨fun ctx => ⟨ctx, fun later retry => absurd retry (op.call_ne_retry ctx later)⟩⟩

theorem toTupleOp_call (tokenizer : Tokenizer) (op : ChainOperator) (ctx : SemContext ChainTuple) :
    (op.toTupleOp tokenizer).call ctx = op.call ctx := rfl

end ChainOperator

def taskCalls : List ChainOperator → SemContext ChainTuple → List ModelCall
  | [], _ => []
  | op :: rest, ctx =>
      op.modelCalls ctx ++
        match op.call ctx with
        | .keepGoing ctx' => taskCalls rest ctx'
        | _ => []

/-! ## What an operator leaves to the next -/

structure SemanticInput.SameMessages (input input' : SemanticInput) : Prop where
  left : input.rightData = []
  right : input'.rightData = []
  data : dataPrompt input'.data = dataPrompt input.data

namespace ChainOperator

variable {op : ChainOperator} {input input' : SemanticInput}

theorem buildPrompts_of_no_right (noRight : input.rightData = []) :
    op.buildPrompts input =
      (dataPrompt input.data,
        dataPrompt input.data ++ getTaskPrompt op.instruction .semFilter) := by
  unfold buildPrompts
  split
  · rw [getPrompt_eq]
  · rw [if_pos noRight, getPrompt_eq]

theorem buildPrompts_of_same (same : input.SameMessages input') :
    op.buildPrompts input' = op.buildPrompts input := by
  rw [buildPrompts_of_no_right same.right, buildPrompts_of_no_right same.left, same.data]

theorem same_rewrites (op : ChainOperator) (noRight : input.rightData = []) :
    input.SameMessages (op.rewrites input) := by
  refine ⟨noRight, ?_, ?_⟩
  · unfold rewrites
    cases op.chainClass with
    | semFilter negate => rfl
    | cascadeOperator negate thresholds => rfl
    | semClassify classes => exact noRight
  · change dataPrompt (op.buildPrompts input).2.dropLast = _
    rw [dropLast_buildPrompts, buildPrompts_of_no_right noRight]
    exact dataPrompt_dataPrompt input.data

theorem call_keepGoing {ctx ctx' : SemContext ChainTuple} (goes : op.call ctx = .keepGoing ctx') :
    ctx'.data.input = op.rewrites ctx.data.input := by
  unfold call at goes
  split at goes
  · cases goes
    rfl
  · cases goes
  · cases goes
  · cases goes

end ChainOperator

section Chain

variable {tokenizer : Tokenizer}

def Passes (tokenizer : Tokenizer) (ops : List ChainOperator) (i : Nat)
    (ctx ctx' : SemContext ChainTuple) : Prop :=
  Stage.runOperators (ops.map (toTupleOp tokenizer)) i ctx = .finished ctx'

variable {ops : List ChainOperator} {op : ChainOperator} {call : ModelCall}

theorem passes_cons {rest : List ChainOperator} {i : Nat} {ctx ctx' : SemContext ChainTuple} :
    Passes tokenizer (op :: rest) i ctx ctx' ↔
      ∃ between, op.call ctx = .keepGoing between ∧
        Passes tokenizer rest (i + 1) between ctx' := by
  unfold Passes
  rw [List.map_cons, Stage.runOperators, toTupleOp_call]
  cases op.call ctx with
  | keepGoing between => simp
  | drop => simp
  | retry later => simp
  | raise => simp

/-- Whatever the operators of a chain have answered, the next one sees the same messages. -/
theorem Passes.same :
    ∀ {i : Nat} {ctx ctx' : SemContext ChainTuple}, ctx.data.input.rightData = [] →
      Passes tokenizer ops i ctx ctx' → ctx.data.input.SameMessages ctx'.data.input := by
  induction ops with
  | nil =>
    intro i ctx ctx' noRight passes
    cases passes
    exact ⟨noRight, noRight, rfl⟩
  | cons op rest ih =>
    intro i ctx ctx' noRight passes
    obtain ⟨between, goes, passes⟩ := passes_cons.mp passes
    have first := op.same_rewrites noRight
    rw [← call_keepGoing goes] at first
    have others := ih first.right passes
    exact ⟨noRight, others.right, others.data.trans first.data⟩

/-! ## The requests of a task and its budget -/

theorem ChainOperator.modelCalls_tokens {ctx : SemContext ChainTuple}
    (made : call ∈ op.modelCalls ctx) (full : call.kind ≠ .dataPart) :
    call.tokens tokenizer = op.estimateTokens tokenizer ctx.data.input := by
  have prompt : call.prompt = (op.buildPrompts ctx.data.input).2 ∧
      call.maxTokens = op.maxTokens := by
    unfold modelCalls at made
    cases chainClass : op.chainClass with
    | semFilter negate =>
      simp only [chainClass, List.mem_singleton] at made
      exact made ▸ ⟨rfl, rfl⟩
    | cascadeOperator negate thresholds =>
      simp only [chainClass, List.mem_cons, List.mem_ite_nil_right] at made
      rcases made with same | ⟨_, same⟩
      · exact same ▸ ⟨rfl, rfl⟩
      · exact same.resolve_right (List.not_mem_nil) ▸ ⟨rfl, rfl⟩
    | semClassify classes =>
      simp only [chainClass, List.mem_cons, List.not_mem_nil, or_false] at made
      rcases made with same | same
      · exact absurd (same ▸ rfl) full
      · exact same ▸ ⟨rfl, rfl⟩
  rw [ModelCall.tokens, estimateTokens, prompt.1, prompt.2]

/-- Every operator that sees the tuple makes a request with its full prompt. -/
theorem ChainOperator.exists_modelCall (op : ChainOperator) (ctx : SemContext ChainTuple) :
    ∃ call ∈ op.modelCalls ctx, call.kind ≠ .dataPart := by
  unfold modelCalls
  cases op.chainClass with
  | semFilter negate | cascadeOperator negate thresholds =>
    exact ⟨_, List.mem_cons_self, fun same => nomatch same⟩
  | semClassify classes =>
    exact ⟨_, List.mem_cons_of_mem _ List.mem_cons_self, fun same => nomatch same⟩

/-- A request of a task is one of an operator whose predecessors have let the tuple pass. -/
theorem mem_taskCalls (tokenizer : Tokenizer) : ∀ {ops : List ChainOperator} {i : Nat}
    {ctx : SemContext ChainTuple},
    call ∈ taskCalls ops ctx ↔
      ∃ before op after ctx', ops = before ++ op :: after ∧
        Passes tokenizer before i ctx ctx' ∧ call ∈ op.modelCalls ctx' := by
  intro ops
  induction ops with
  | nil =>
    intro i ctx
    simp [taskCalls]
  | cons first rest ih =>
    intro i ctx
    rw [taskCalls, List.mem_append]
    constructor
    · intro made
      cases made with
      | inl here => exact ⟨[], first, rest, ctx, rfl, rfl, here⟩
      | inr later =>
        cases called : first.call ctx with
        | keepGoing between =>
          rw [called] at later
          obtain ⟨before, op, after, ctx', split, passes, made⟩ :=
            (ih (i := i + 1)).mp later
          exact ⟨first :: before, op, after, ctx', by rw [split]; rfl,
            passes_cons.mpr ⟨between, called, passes⟩, made⟩
        | drop => simp [called] at later
        | retry again => simp [called] at later
        | raise => simp [called] at later
    · rintro ⟨before, op, after, ctx', split, passes, made⟩
      cases before with
      | nil =>
        obtain ⟨rfl, rfl⟩ := List.cons.inj split
        cases passes
        exact Or.inl made
      | cons head before =>
        obtain ⟨rfl, rfl⟩ := List.cons.inj split
        obtain ⟨between, goes, passes⟩ := passes_cons.mp passes
        rw [goes]
        exact Or.inr ((ih (i := i + 1)).mpr ⟨before, op, after, ctx', rfl, passes, made⟩)

theorem Passes.of_isPrefix : ∀ {reached : List ChainOperator} {i : Nat}
    {ctx ctx' : SemContext ChainTuple}, Passes tokenizer ops i ctx ctx' → reached <+: ops →
      ∃ between, Passes tokenizer reached i ctx between := by
  induction ops with
  | nil =>
    intro reached i ctx ctx' passes first
    rw [List.prefix_nil.mp first]
    exact ⟨ctx, rfl⟩
  | cons op rest ih =>
    intro reached i ctx ctx' passes first
    cases reached with
    | nil => exact ⟨ctx, rfl⟩
    | cons head reached =>
      obtain ⟨rfl, shorter⟩ := List.cons_prefix_cons.mp first
      obtain ⟨next, goes, passes⟩ := passes_cons.mp passes
      obtain ⟨between, passes⟩ := ih passes shorter
      exact ⟨between, passes_cons.mpr ⟨next, goes, passes⟩⟩

theorem Passes.estimate {i : Nat} {ctx ctx' : SemContext ChainTuple}
    (noRight : ctx.data.input.rightData = []) (passes : Passes tokenizer ops i ctx ctx') :
    op.estimateTokens tokenizer ctx'.data.input = op.estimateTokens tokenizer ctx.data.input := by
  unfold estimateTokens
  rw [buildPrompts_of_same (passes.same noRight)]

variable {ops : List ChainOperator} {stage : Stage ChainTuple} {task : Task ChainTuple}

section

variable (chain : stage.operators = ops.map (toTupleOp tokenizer))
  (noRight : task.ctx.data.input.rightData = []) (ratios : MapRatios)

include chain noRight ratios

theorem taskCalls_le_estimate (made : call ∈ taskCalls (ops.drop task.opIndex) task.ctx)
    (full : call.kind ≠ .dataPart) :
    (call.tokens tokenizer * stage.bytesPerToken : Int) ≤ stage.estimateBudget ratios task := by
  obtain ⟨before, op, after, ctx', rest, passes, made⟩ :=
    (mem_taskCalls tokenizer (i := task.opIndex)).mp made
  have member : op.toTupleOp tokenizer ∈ stage.operators.drop task.opIndex := by
    rw [chain, ← List.map_drop, rest]
    exact List.mem_map_of_mem (List.mem_append_right _ List.mem_cons_self)
  have bound := Stage.estimate_le_maxBoundary ratios task.ctx member
  change (op.estimateTokens tokenizer task.ctx.data.input : Int) ≤ _ at bound
  rw [op.modelCalls_tokens made full, passes.estimate noRight, Stage.estimateBudget]
  exact Int.mul_le_mul_of_nonneg_right bound (Int.natCast_nonneg _)

/-- If every operator sees the tuple, one of their requests needs the whole estimate. -/
theorem exists_taskCall_eq_estimate {before : List ChainOperator} {last : ChainOperator}
    (rest : ops.drop task.opIndex = before ++ [last]) {ctx' : SemContext ChainTuple}
    (passes : Passes tokenizer before task.opIndex task.ctx ctx') :
    ∃ call ∈ taskCalls (ops.drop task.opIndex) task.ctx, call.kind ≠ .dataPart ∧
      stage.estimateBudget ratios task = call.tokens tokenizer * stage.bytesPerToken := by
  have nonempty : stage.operators.drop task.opIndex ≠ [] := by
    rw [chain, ← List.map_drop, rest]
    simp
  obtain ⟨op, member, attained⟩ := Stage.maxBoundary_attained ratios task.ctx nonempty
  rw [chain, ← List.map_drop] at member
  obtain ⟨op, own, rfl⟩ := List.mem_map.mp member
  obtain ⟨reached, others, split⟩ := List.append_of_mem own
  have shorter : reached.length ≤ before.length := by
    have lengths := congrArg List.length (rest.symm.trans split)
    simp only [List.length_append, List.length_cons, List.length_nil] at lengths
    omega
  have first : reached <+: before :=
    List.prefix_of_prefix_length_le ⟨op :: others, split.symm⟩ ⟨[last], rest.symm⟩ shorter
  obtain ⟨between, passes⟩ := passes.of_isPrefix first
  obtain ⟨call, made, full⟩ := op.exists_modelCall between
  refine ⟨call, (mem_taskCalls tokenizer).mpr ⟨reached, op, others, between, split, passes, made⟩,
    full, ?_⟩
  rw [Stage.estimateBudget, attained, op.modelCalls_tokens made full, passes.estimate noRight]
  rfl

end

/-- For a chain of filters, cascades and classifications and a tuple without a right side: each
operator that the tuple reaches builds the prompts that it builds on the tuple as admitted; no
request with a full prompt needs more than the estimate; and if the tuple reaches the last
operator, one of the requests needs exactly the estimate. -/
theorem estimateBudget_exact (tokenizer : Tokenizer) (ops : List ChainOperator)
    (stage : Stage ChainTuple)
    (chain : stage.operators = ops.map (toTupleOp tokenizer))
    (task : Task ChainTuple) (noRight : task.ctx.data.input.rightData = []) (ratios : MapRatios) :
    (∀ before op after ctx', ops.drop task.opIndex = before ++ op :: after →
      Passes tokenizer before task.opIndex task.ctx ctx' →
      op.buildPrompts ctx'.data.input = op.buildPrompts task.ctx.data.input) ∧
    (∀ call ∈ taskCalls (ops.drop task.opIndex) task.ctx, call.kind ≠ .dataPart →
      (call.tokens tokenizer * stage.bytesPerToken : Int) ≤ stage.estimateBudget ratios task) ∧
    (∀ before last ctx', ops.drop task.opIndex = before ++ [last] →
      Passes tokenizer before task.opIndex task.ctx ctx' →
      ∃ call ∈ taskCalls (ops.drop task.opIndex) task.ctx, call.kind ≠ .dataPart ∧
        stage.estimateBudget ratios task = call.tokens tokenizer * stage.bytesPerToken) := by
  refine ⟨?_, ?_, ?_⟩
  · intro before op after ctx' _ passes
    exact buildPrompts_of_same (passes.same noRight)
  · intro call made full
    exact taskCalls_le_estimate chain noRight ratios made full
  · intro before last ctx' rest passes
    exact exists_taskCall_eq_estimate chain noRight ratios rest passes

end Chain

/-! Two tuples, of which one is rejected by its first filter. -/

/-- A tokenizer that counts characters, with a template that leaves the messages out. -/
def characters : Tokenizer := ⟨List.length, fun _ => []⟩

/-- A tuple as its reader makes it, to which every request is answered with this text. -/
def answeredTuple (text : Text) : SemContext ChainTuple where
  data :=
    { state := { responses := fun _ => ⟨⟨text, "request", .other⟩, [], none, 0, .empty⟩ }
      input := .ofText []
      groups := [] }
  pinReqId := none

def chainStage (ops : List ChainOperator) : Stage ChainTuple where
  stageId := 0
  operators := ops.map (toTupleOp characters)
  bytesPerToken := 1

def admittedTask (text : Text) : Task ChainTuple where
  ctx := answeredTuple text
  stageIndex := 0
  taskId := 0

def twoFilters : List ChainOperator :=
  [semFilter [] 0, { semFilter [] 1 with maxTokens := 20 }]

def filterThenClassify : List ChainOperator :=
  semFilter [] 0 :: (semClassify characters [.ofString "classical"] 1).toList

theorem estimateBudget_exact_twoFilters :
    ∃ call ∈ taskCalls twoFilters (answeredTuple trueToken), call.kind ≠ .dataPart ∧
      (chainStage twoFilters).estimateBudget (fun _ => none) (admittedTask trueToken) =
        call.tokens characters * (chainStage twoFilters).bytesPerToken := by
  obtain ⟨_, _, needed⟩ := estimateBudget_exact characters twoFilters (chainStage twoFilters) rfl
    (admittedTask trueToken) rfl (fun _ => none)
  exact needed [semFilter [] 0] _ _ rfl rfl

/-- The estimate is above every filter's request if the tuple is rejected early, and if the
largest request is that of a classification. -/
theorem estimateBudget_above_filter_calls :
    (∀ call ∈ taskCalls twoFilters (answeredTuple falseToken),
      (call.tokens characters * (chainStage twoFilters).bytesPerToken : Int) <
        (chainStage twoFilters).estimateBudget (fun _ => none) (admittedTask falseToken)) ∧
    (∀ call ∈ taskCalls filterThenClassify (answeredTuple trueToken),
      call.kind = .filter ∨ call.kind = .cascade →
      (call.tokens characters * (chainStage filterThenClassify).bytesPerToken : Int) <
        (chainStage filterThenClassify).estimateBudget (fun _ => none)
          (admittedTask trueToken)) := by
  decide +kernel

/-! ## The recorded class -/

section Classification

variable {lower : Text → Text} {name groupOutput : Text} {classes : List Text}

theorem classOf_cons (lower : Text → Text) (name : Text) (classes : List Text)
    (groupOutput : Text) :
    classOf lower (name :: classes) groupOutput =
      if (lower name).OccursIn groupOutput then name else classOf lower classes groupOutput := by
  unfold classOf
  rw [List.find?_cons]
  by_cases occurs : (lower name).OccursIn groupOutput
  · rw [if_pos occurs, Text.contains_iff.mpr occurs]
    rfl
  · have absent : groupOutput.contains (lower name) = false :=
      Bool.eq_false_iff.mpr (mt Text.contains_iff.mp occurs)
    rw [if_neg occurs, absent]

theorem classOf_mem (named : ∃ name ∈ classes, lower name = groupOutput) :
    classOf lower classes groupOutput ∈ classes := by
  induction classes with
  | nil =>
    obtain ⟨_, member, _⟩ := named
    exact absurd member List.not_mem_nil
  | cons first rest ih =>
    rw [classOf_cons]
    split
    · exact List.mem_cons_self
    · rename_i absent
      obtain ⟨name, member, same⟩ := named
      cases List.mem_cons.mp member with
      | inl isFirst =>
        subst isFirst
        exact absurd (same ▸ Text.OccursIn.rfl) absent
      | inr later => exact List.mem_cons_of_mem _ (ih ⟨name, later, same⟩)

/-- For an answer that is the name of a class, the recorded class has that name exactly if no
class listed before the first one with that name has a name that occurs in the answer. -/
theorem classOf_named_iff (lower : Text → Text) (classes : List Text) (groupOutput : Text)
    (named : ∃ name ∈ classes, lower name = groupOutput) :
    (classOf lower classes groupOutput ∈ classes ∧
        lower (classOf lower classes groupOutput) = groupOutput) ↔
      ∀ name ∈ classes.takeWhile (fun name => lower name ≠ groupOutput),
        ¬ (lower name).OccursIn groupOutput := by
  rw [and_iff_right (classOf_mem named)]
  induction classes with
  | nil =>
    obtain ⟨_, member, _⟩ := named
    exact absurd member List.not_mem_nil
  | cons first rest ih =>
    rw [classOf_cons]
    by_cases same : lower first = groupOutput
    · -- the class is found at once, and none stands before it
      have occurs : (lower first).OccursIn groupOutput := same ▸ Text.OccursIn.rfl
      rw [if_pos occurs, List.takeWhile_cons_of_neg (by simpa using same)]
      simp [same]
    · rw [List.takeWhile_cons_of_pos (by simpa using same)]
      by_cases occurs : (lower first).OccursIn groupOutput
      · rw [if_pos occurs]
        exact iff_of_false same fun none => none first List.mem_cons_self occurs
      · rw [if_neg occurs, ih, List.forall_mem_cons, and_iff_right occurs]
        obtain ⟨name, member, isName⟩ := named
        cases List.mem_cons.mp member with
        | inl isFirst => exact absurd (isFirst ▸ isName) same
        | inr later => exact ⟨name, later, isName⟩

theorem classOf_named_female_listed_first :
    Text.lower (classOf Text.lower [.ofString "Female", .ofString "Male"] (.ofString "female")) =
      .ofString "female" :=
  ((classOf_named_iff Text.lower [.ofString "Female", .ofString "Male"] (.ofString "female")
    (by decide +kernel)).mpr (by decide +kernel)).2

/-- With the classes in the other order, the answer `female` is recorded as `Male`. -/
theorem classOf_female_is_male :
    (∃ name ∈ [.ofString "Male", .ofString "Female"], Text.lower name = .ofString "female") ∧
      classOf Text.lower [.ofString "Male", .ofString "Female"] (.ofString "female") =
        .ofString "Male" := by
  decide +kernel

end Classification

end Kalypso.Query
