import Mathlib.Data.List.Infix
import Mathlib.Data.List.MinMax
import Mathlib.Order.Nat

/-!
# Incremental detokenization

`BaseIncrementalDetokenizer`: the text of a request grows by the decoded piece of each new token
and is cut at the first stop string that an update completes.  A streamed output holds back as many
characters as a stop string may still take away.  The decoder is a parameter: any sequence of
pieces may come out of it.
-/

set_option autoImplicit false

namespace Kalypso.Engine

abbrev Text := List Char

def findFrom (text sub : Text) (start : Nat) : Option Nat :=
  (List.range (text.length + 1)).find? fun i => start ≤ i && sub.isPrefixOf (text.drop i)

def pyIndex (text : Text) (i : Int) : Nat :=
  if i < 0 then (text.length + i).toNat else i.toNat

/-- The matched stop string and the length to truncate to, `none` for no truncation. -/
def checkStopStrings (outputText : Text) (newCharCount : Nat) (stop : List Text)
    (includeInOutput : Bool) : Option (Text × Option Nat) :=
  if newCharCount = 0 then none
  else
    stop.findSome? fun stopStr =>
      (findFrom outputText stopStr
        (pyIndex outputText (1 - newCharCount - stopStr.length))).map fun stopIndex =>
          if includeInOutput then
            if outputText.length ≤ stopIndex + stopStr.length then (stopStr, none)
            else (stopStr, some (stopIndex + stopStr.length))
          else (stopStr, some stopIndex)

structure BaseIncrementalDetokenizer (D : Type) where
  decoder : D
  outputTokenIds : List Nat
  stop : List Text
  minTokens : Nat
  includeStopStrInOutput : Bool
  stopBufferLength : Int
  lastOutputTextOffset : Int
  outputText : Text

namespace BaseIncrementalDetokenizer

variable {D : Type}

def init (decoder : D) (stop : List Text) (minTokens : Nat) (includeStopStrInOutput : Bool) :
    BaseIncrementalDetokenizer D where
  decoder
  outputTokenIds := []
  stop
  minTokens
  includeStopStrInOutput
  stopBufferLength := if stop ≠ [] ∧ ¬ includeStopStrInOutput then
    (((stop.map List.length).foldr max 0 : Nat) : Int) - 1 else 0
  lastOutputTextOffset := 0
  outputText := []

variable (decodeNext : D → Nat → Text × D)

/-- One token of the loop of `update`, with the offset from which stop strings are checked. -/
def decodeToken (loop : BaseIncrementalDetokenizer D × Nat) (newTokenId : Nat) :
    BaseIncrementalDetokenizer D × Nat :=
  let (detokenizer, stopCheckOffset) := loop
  let (piece, decoder) := decodeNext detokenizer.decoder newTokenId
  let outputTokenIds := detokenizer.outputTokenIds ++ [newTokenId]
  let outputText := detokenizer.outputText ++ piece
  ({ detokenizer with decoder, outputTokenIds, outputText },
    if detokenizer.minTokens ≠ 0 ∧ outputTokenIds.length ≤ detokenizer.minTokens then
      outputText.length else stopCheckOffset)

def applyStop (stopCheckOffset : Nat) (detokenizer : BaseIncrementalDetokenizer D) :
    Option Text × BaseIncrementalDetokenizer D :=
  if detokenizer.stop ≠ [] ∧ detokenizer.minTokens < detokenizer.outputTokenIds.length then
    match checkStopStrings detokenizer.outputText
        (detokenizer.outputText.length - stopCheckOffset) detokenizer.stop
        detokenizer.includeStopStrInOutput with
    | none => (none, detokenizer)
    | some (stopString, none) => (some stopString, detokenizer)
    | some (stopString, some truncateTo) =>
        (some stopString,
          { detokenizer with outputText := detokenizer.outputText.take truncateTo })
  else (none, detokenizer)

/-- The first part of `update`: the text with the new tokens, and the offset of the stop check.
After a stop token the last token is recorded without being decoded. -/
def decode (newTokenIds : List Nat) (stopTerminated : Bool)
    (detokenizer : BaseIncrementalDetokenizer D) : BaseIncrementalDetokenizer D × Nat :=
  if stopTerminated ∧ ¬ detokenizer.includeStopStrInOutput then
    let (after, stopCheckOffset) := newTokenIds.dropLast.foldl (decodeToken decodeNext)
      (detokenizer, detokenizer.outputText.length)
    ({ after with outputTokenIds := after.outputTokenIds ++ newTokenIds.getLast?.toList },
      stopCheckOffset)
  else newTokenIds.foldl (decodeToken decodeNext) (detokenizer, detokenizer.outputText.length)

def update (newTokenIds : List Nat) (stopTerminated : Bool)
    (detokenizer : BaseIncrementalDetokenizer D) : Option Text × BaseIncrementalDetokenizer D :=
  if newTokenIds = [] then (none, detokenizer)
  else
    let (after, stopCheckOffset) := detokenizer.decode decodeNext newTokenIds stopTerminated
    applyStop stopCheckOffset after

def getNextOutputText (finished delta : Bool) (detokenizer : BaseIncrementalDetokenizer D) :
    Text × BaseIncrementalDetokenizer D :=
  let text := detokenizer.outputText
  let bufferLength := if finished then 0 else detokenizer.stopBufferLength
  if !delta then
    (if bufferLength ≠ 0 then text.take (pyIndex text (-bufferLength)) else text, detokenizer)
  else
    let length := text.length - bufferLength
    if detokenizer.lastOutputTextOffset < length then
      ((text.take length.toNat).drop detokenizer.lastOutputTextOffset.toNat,
        { detokenizer with lastOutputTextOffset := length })
    else ([], detokenizer)

/-- The updates of a request, each followed by the next delta; the request is finished at its last
update or at the one that matches a stop string.  The deltas, the matched stop string and the
detokenizer at the end. -/
def stream (detokenizer : BaseIncrementalDetokenizer D) :
    List (List Nat × Bool) → List Text × Option Text × BaseIncrementalDetokenizer D
  | [] => ([], none, detokenizer)
  | (newTokenIds, stopTerminated) :: rest =>
      let (stopString, updated) := detokenizer.update decodeNext newTokenIds stopTerminated
      let (delta, next) := updated.getNextOutputText (stopString.isSome || rest.isEmpty) true
      if stopString.isSome then ([delta], stopString, next)
      else
        let (deltas, result) := stream next rest
        (delta :: deltas, result)

/-! ## What an update does -/

theorem findFrom_eq_some {text sub : Text} {start i : Nat}
    (found : findFrom text sub start = some i) :
    start ≤ i ∧ sub <+: text.drop i ∧ ∀ j, start ≤ j → j < i → ¬ sub <+: text.drop j := by
  obtain ⟨here, _, before⟩ := List.find?_range_eq_some.mp found
  simp only [Bool.and_eq_true, decide_eq_true_eq, List.isPrefixOf_iff_prefix] at here
  refine ⟨here.1, here.2, fun j inside less occurs => ?_⟩
  have missed := before j less
  simp [inside, List.isPrefixOf_iff_prefix.mpr occurs] at missed

theorem findFrom_eq_none {text sub : Text} {start : Nat} (missed : findFrom text sub start = none)
    (nonempty : sub ≠ []) : ∀ i, start ≤ i → ¬ sub <+: text.drop i := by
  intro i inside occurs
  have bounds : i < text.length + 1 := by
    by_contra outside
    rw [List.drop_eq_nil_of_le (by omega)] at occurs
    exact nonempty (List.prefix_nil.mp occurs)
  have here := List.find?_range_eq_none.mp missed i bounds
  simp [inside, List.isPrefixOf_iff_prefix.mpr occurs] at here

variable {stop : List Text} {newTokenIds : List Nat} {offset : Nat}

/-- The search starts at the first place from which a stop string reaches into the new text. -/
theorem pyIndex_window {text stopStr : Text} (new : offset < text.length)
    (nonempty : stopStr ≠ []) :
    pyIndex text (1 - (text.length - offset : Nat) - stopStr.length) =
      offset + 1 - stopStr.length := by
  have := List.length_pos_iff.mpr nonempty
  unfold pyIndex
  split
  · omega
  · omega

def settings (detokenizer : BaseIncrementalDetokenizer D) : List Text × Nat × Bool × Int :=
  (detokenizer.stop, detokenizer.minTokens, detokenizer.includeStopStrInOutput,
    detokenizer.stopBufferLength)

/-- The text has grown by the decoded pieces; stop strings are checked from the offset. -/
structure Decoded (before after : BaseIncrementalDetokenizer D) (offset : Nat) : Prop where
  text : before.outputText <+: after.outputText
  settings : after.settings = before.settings
  last : after.lastOutputTextOffset = before.lastOutputTextOffset
  lower : before.outputText.length ≤ offset
  upper : offset ≤ after.outputText.length
  unshifted : before.minTokens = 0 → offset = before.outputText.length

theorem decodeTokens_decoded (before : BaseIncrementalDetokenizer D) (tokens : List Nat) :
    ∀ loop : BaseIncrementalDetokenizer D × Nat, Decoded before loop.1 loop.2 →
      Decoded before (tokens.foldl (decodeToken decodeNext) loop).1
        (tokens.foldl (decodeToken decodeNext) loop).2 := by
  induction tokens with
  | nil => exact fun _ decoded => decoded
  | cons token rest ih =>
    intro loop decoded
    refine ih _ ⟨?_, decoded.settings, decoded.last, ?_, ?_, ?_⟩
    · exact decoded.text.trans (List.prefix_append _ _)
    · have grows := decoded.text.length_le
      have lower := decoded.lower
      simp only [decodeToken]
      split
      · rw [List.length_append]
        omega
      · exact lower
    · have upper := decoded.upper
      simp only [decodeToken, List.length_append]
      split
      · exact Nat.le_refl _
      · omega
    · intro none
      have sameMin : loop.1.minTokens = before.minTokens := congrArg (·.2.1) decoded.settings
      simp only [decodeToken, sameMin, none, ne_eq, not_true_eq_false, false_and, if_false]
      exact decoded.unshifted none

theorem decode_decoded (newTokenIds : List Nat) (stopTerminated : Bool)
    (before : BaseIncrementalDetokenizer D) :
    Decoded before (before.decode decodeNext newTokenIds stopTerminated).1
      (before.decode decodeNext newTokenIds stopTerminated).2 := by
  have start : Decoded before before before.outputText.length :=
    ⟨List.prefix_refl _, rfl, rfl, Nat.le_refl _, Nat.le_refl _, fun _ => rfl⟩
  have decoded := fun tokens => decodeTokens_decoded decodeNext before tokens
    (before, before.outputText.length) start
  unfold decode
  split
  · obtain ⟨text, settings, last, lower, upper, unshifted⟩ := decoded newTokenIds.dropLast
    exact ⟨text, settings, last, lower, upper, unshifted⟩
  · exact decoded newTokenIds

theorem decode_outputTokenIds (some : newTokenIds ≠ []) (stopTerminated : Bool)
    (before : BaseIncrementalDetokenizer D) :
    (before.decode decodeNext newTokenIds stopTerminated).1.outputTokenIds ≠ [] := by
  obtain ⟨others, last, rfl⟩ := List.eq_nil_or_concat newTokenIds |>.resolve_left some
  unfold decode
  split
  · simp
  · simp [decodeToken]

theorem applyStop_eq (offset : Nat) (after : BaseIncrementalDetokenizer D) :
    (applyStop offset after = (none, after) ∧
      (after.stop = [] ∨ after.outputTokenIds.length ≤ after.minTokens ∨
        checkStopStrings after.outputText (after.outputText.length - offset) after.stop
          after.includeStopStrInOutput = none)) ∨
    ∃ stopString truncateTo, checkStopStrings after.outputText (after.outputText.length - offset)
        after.stop after.includeStopStrInOutput = some (stopString, truncateTo) ∧
      applyStop offset after = (some stopString, { after with
        outputText := after.outputText.take (truncateTo.getD after.outputText.length) }) := by
  unfold applyStop
  split
  · split
    · next missed => exact .inl ⟨rfl, .inr (.inr missed)⟩
    · next stopString found => exact .inr ⟨stopString, none, found, by simp⟩
    · next stopString truncateTo found => exact .inr ⟨stopString, some truncateTo, found, rfl⟩
  · next skipped =>
      refine .inl ⟨rfl, ?_⟩
      by_cases empty : after.stop = []
      · exact .inl empty
      · exact .inr (.inl (Nat.le_of_not_lt fun more => skipped ⟨empty, more⟩))

/-- The first stop string of the list that the new text completes, at its first place there. -/
theorem checkStopStrings_eq_some {text stopString : Text} {includeInOutput : Bool}
    {truncateTo : Option Nat} (nonempty : ∀ s ∈ stop, s ≠ [])
    (found : checkStopStrings text (text.length - offset) stop includeInOutput =
      some (stopString, truncateTo)) :
    offset < text.length ∧ ∃ earlier later stopIndex, stop = earlier ++ stopString :: later ∧
      findFrom text stopString (offset + 1 - stopString.length) = some stopIndex ∧
      truncateTo.getD text.length = (if includeInOutput then
        min text.length (stopIndex + stopString.length) else stopIndex) ∧
      ∀ s ∈ earlier, findFrom text s (offset + 1 - s.length) = none := by
  unfold checkStopStrings at found
  split at found
  · cases found
  have new : offset < text.length := by omega
  obtain ⟨earlier, s, later, isStop, here, before⟩ := List.findSome?_eq_some_iff.mp found
  obtain ⟨stopIndex, isFound, cut⟩ := Option.map_eq_some_iff.mp here
  have member : s ∈ stop := by simp [isStop]
  rw [pyIndex_window new (nonempty s member)] at isFound
  obtain ⟨rfl, isCut⟩ : s = stopString ∧ truncateTo.getD text.length =
      (if includeInOutput then min text.length (stopIndex + s.length) else stopIndex) := by
    cases includeInOutput with
    | false =>
      cases cut
      exact ⟨rfl, rfl⟩
    | true =>
      simp only [if_true] at cut ⊢
      split at cut
      · cases cut
        exact ⟨rfl, by simp only [Option.getD_none]; omega⟩
      · cases cut
        exact ⟨rfl, by simp only [Option.getD_some]; omega⟩
  refine ⟨new, earlier, later, stopIndex, isStop, isFound, isCut, fun s' isEarlier => ?_⟩
  have missed := before s' isEarlier
  rw [Option.map_eq_none_iff, pyIndex_window new (nonempty s' (by simp [isStop, isEarlier]))]
    at missed
  exact missed

/-! ## Streamed text -/

/-- As many characters are held back as a stop string has before its last one. -/
structure HoldsBack (detokenizer : BaseIncrementalDetokenizer D) : Prop where
  nonempty : ∀ s ∈ detokenizer.stop, s ≠ []
  nonneg : 0 ≤ detokenizer.stopBufferLength
  covers : detokenizer.includeStopStrInOutput = false → ∀ s ∈ detokenizer.stop,
    (s.length : Int) ≤ detokenizer.stopBufferLength + 1

theorem HoldsBack.congr {before after : BaseIncrementalDetokenizer D} (holds : HoldsBack before)
    (same : after.settings = before.settings) : HoldsBack after := by
  obtain ⟨sameStop, _, sameInclude, sameBuffer⟩ :
      after.stop = before.stop ∧ after.minTokens = before.minTokens ∧
        after.includeStopStrInOutput = before.includeStopStrInOutput ∧
        after.stopBufferLength = before.stopBufferLength := by simpa [settings] using same
  exact ⟨sameStop ▸ holds.nonempty, sameBuffer ▸ holds.nonneg,
    sameStop ▸ sameInclude ▸ sameBuffer ▸ holds.covers⟩

theorem holdsBack_init (decoder : D) (minTokens : Nat) (includeStopStrInOutput : Bool)
    (nonempty : ∀ s ∈ stop, s ≠ []) :
    HoldsBack (init decoder stop minTokens includeStopStrInOutput) := by
  have longest : ∀ s ∈ stop, s.length ≤ (stop.map List.length).foldr max 0 :=
    fun s member => List.le_max_of_le (List.mem_map_of_mem member) (Nat.le_refl _)
  refine ⟨nonempty, ?_, fun excluded s member => ?_⟩
  · simp only [init]
    split
    · next some =>
        obtain ⟨s, member⟩ := List.exists_mem_of_ne_nil stop some.1
        have := List.length_pos_iff.mpr (nonempty s member)
        have := longest s member
        omega
    · exact Int.le_refl 0
  · have some : stop ≠ [] ∧ ¬ includeStopStrInOutput = true :=
      ⟨List.ne_nil_of_mem member, Bool.eq_false_iff.mp excluded⟩
    have := longest s member
    simp only [init, if_pos some]
    omega

/-- What has been returned is the text up to the recorded offset, all but the held-back part. -/
structure Streamed (returned : Text) (detokenizer : BaseIncrementalDetokenizer D) : Prop where
  returned : returned = detokenizer.outputText.take detokenizer.lastOutputTextOffset.toNat
  offset : detokenizer.lastOutputTextOffset =
    (detokenizer.outputText.length - detokenizer.stopBufferLength).toNat

/-- The next delta extends what has been returned to all that may be returned now. -/
theorem getNextOutputText_delta (finished : Bool) {updated : BaseIncrementalDetokenizer D}
    {length : Int} (isLength : length =
      updated.outputText.length - (if finished then 0 else updated.stopBufferLength))
    (nonneg : 0 ≤ updated.lastOutputTextOffset)
    (less : updated.lastOutputTextOffset ≤ length.toNat) :
    updated.outputText.take updated.lastOutputTextOffset.toNat ++
        (updated.getNextOutputText finished true).1 = updated.outputText.take length.toNat ∧
      (updated.getNextOutputText finished true).2 =
        { updated with lastOutputTextOffset := length.toNat } := by
  simp only [getNextOutputText, Bool.not_true, Bool.false_eq_true, if_false, ← isLength]
  split
  · next more =>
      have shorter : updated.lastOutputTextOffset.toNat ≤ length.toNat := by omega
      have parts := List.take_append_drop updated.lastOutputTextOffset.toNat
        (updated.outputText.take length.toNat)
      rw [List.take_take, Nat.min_eq_left shorter] at parts
      exact ⟨parts, by rw [Int.toNat_of_nonneg (by omega)]⟩
  · have same : updated.lastOutputTextOffset = length.toNat := by omega
    refine ⟨?_, by rw [← same]⟩
    rw [List.append_nil, same, Int.toNat_natCast]

theorem update_keeps_returned {before updated : BaseIncrementalDetokenizer D} {returned : Text}
    {stopTerminated : Bool} {stopString : Option Text} (holds : HoldsBack before)
    (streamed : Streamed returned before)
    (isUpdate : before.update decodeNext newTokenIds stopTerminated = (stopString, updated)) :
    updated.settings = before.settings ∧
      updated.lastOutputTextOffset = before.lastOutputTextOffset ∧
      returned = updated.outputText.take updated.lastOutputTextOffset.toNat ∧
      updated.lastOutputTextOffset.toNat ≤ updated.outputText.length ∧
      (stopString = none → before.outputText.length ≤ updated.outputText.length) := by
  have offset := streamed.offset
  have nonneg := holds.nonneg
  rw [update] at isUpdate
  split at isUpdate
  · obtain ⟨rfl, rfl⟩ := Prod.mk.inj isUpdate
    exact ⟨rfl, rfl, streamed.returned, by omega, fun _ => Nat.le_refl _⟩
  have decoded := decode_decoded decodeNext newTokenIds stopTerminated before
  generalize before.decode decodeNext newTokenIds stopTerminated = result at decoded isUpdate
  obtain ⟨after, start⟩ := result
  change Decoded before after start at decoded
  have grows := decoded.text.length_le
  have kept : ∀ n, before.lastOutputTextOffset.toNat ≤ n →
      returned = (after.outputText.take n).take before.lastOutputTextOffset.toNat := by
    intro n inside
    obtain ⟨new, isAfter⟩ := decoded.text
    rw [List.take_take, Nat.min_eq_left inside, ← isAfter, List.take_append_of_le_length (by omega)]
    exact streamed.returned
  rcases applyStop_eq start after with ⟨missed, _⟩ | ⟨matched, truncateTo, found, cut⟩
  · obtain ⟨rfl, rfl⟩ := Prod.mk.inj (missed.symm.trans isUpdate)
    have whole := kept after.outputText.length (by omega)
    rw [List.take_length] at whole
    exact ⟨decoded.settings, decoded.last, by rw [decoded.last]; exact whole,
      by rw [decoded.last]; omega, fun _ => grows⟩
  · obtain ⟨rfl, rfl⟩ := Prod.mk.inj (cut.symm.trans isUpdate)
    have after_holds := holds.congr decoded.settings
    have sameBuffer : after.stopBufferLength = before.stopBufferLength :=
      congrArg (·.2.2.2) decoded.settings
    obtain ⟨new, earlier, later, stopIndex, isStop, isFound, isCut, _⟩ :=
      checkStopStrings_eq_some after_holds.nonempty found
    have inside : before.lastOutputTextOffset.toNat ≤ truncateTo.getD after.outputText.length := by
      have reaches := (findFrom_eq_some isFound).1
      have lower := decoded.lower
      rw [isCut]
      cases included : after.includeStopStrInOutput with
      | true =>
        simp only [if_true]
        omega
      | false =>
        have covers := after_holds.covers included matched (by simp [isStop])
        simp only [Bool.false_eq_true, if_false]
        omega
    refine ⟨decoded.settings, decoded.last, ?_, ?_, nofun⟩
    · simpa only [decoded.last] using kept _ inside
    · simp only [decoded.last, List.length_take]
      omega

/-- From an update on, the deltas complete what has been returned to the final text. -/
theorem stream_completes (calls : List (List Nat × Bool)) :
    ∀ (before : BaseIncrementalDetokenizer D) (returned : Text), HoldsBack before →
      Streamed returned before → calls ≠ [] →
      returned ++ (before.stream decodeNext calls).1.flatten =
        (before.stream decodeNext calls).2.2.outputText := by
  induction calls with
  | nil => exact fun _ _ _ _ some => (some rfl).elim
  | cons call rest ih =>
    intro before returned holds streamed _
    obtain ⟨newTokenIds, stopTerminated⟩ := call
    cases isUpdate : before.update decodeNext newTokenIds stopTerminated with
    | mk stopString updated =>
      obtain ⟨same, sameLast, kept, inside, grows⟩ :=
        update_keeps_returned decodeNext holds streamed isUpdate
      have nonneg : 0 ≤ updated.lastOutputTextOffset := by
        rw [sameLast, streamed.offset]
        exact Int.natCast_nonneg _
      have holds' := holds.congr same
      by_cases finished : (stopString.isSome || rest.isEmpty) = true
      · obtain ⟨longer, isNext⟩ := getNextOutputText_delta true rfl nonneg (by simp; omega)
        have ends : returned ++ (updated.getNextOutputText true true).1 = updated.outputText := by
          rw [kept, longer]
          simp
        simp only [stream, isUpdate, finished]
        cases stopString with
        | some matched => simpa [isNext] using ends
        | none =>
          obtain rfl : rest = [] := by simpa using finished
          simpa [stream, isNext] using ends
      · obtain ⟨isNone, more⟩ : stopString = none ∧ rest ≠ [] := by simpa using finished
        subst isNone
        have buffer := holds'.nonneg
        have longer := grows rfl
        have sameBuffer : updated.stopBufferLength = before.stopBufferLength :=
          congrArg (·.2.2.2) same
        have less : updated.lastOutputTextOffset ≤
            ((updated.outputText.length : Int) - updated.stopBufferLength).toNat := by
          rw [sameLast, streamed.offset, sameBuffer]
          omega
        obtain ⟨delta, isNext⟩ := getNextOutputText_delta false rfl nonneg less
        have streamed' : Streamed (returned ++ (updated.getNextOutputText false true).1)
            (updated.getNextOutputText false true).2 := by
          rw [isNext, kept, delta]
          exact ⟨rfl, rfl⟩
        have next := ih _ _ (isNext ▸ holds'.congr rfl) streamed' more
        simp only [stream, isUpdate, finished]
        simpa using next

/-- The deltas of a request concatenate to its final text; none of them is taken back. -/
theorem streamed_text_agrees (decoder : D) (stop : List Text) (nonempty : ∀ s ∈ stop, s ≠ [])
    (minTokens : Nat) (includeStopStrInOutput : Bool) (calls : List (List Nat × Bool)) :
    ((init decoder stop minTokens includeStopStrInOutput).stream decodeNext calls).1.flatten =
        ((init decoder stop minTokens includeStopStrInOutput).stream decodeNext
          calls).2.2.outputText ∧
      ∀ n, (((init decoder stop minTokens includeStopStrInOutput).stream decodeNext
        calls).1.take n).flatten <+: ((init decoder stop minTokens includeStopStrInOutput).stream
          decodeNext calls).2.2.outputText := by
  have holds := holdsBack_init decoder minTokens includeStopStrInOutput nonempty
  have agrees : ((init decoder stop minTokens includeStopStrInOutput).stream decodeNext
      calls).1.flatten = ((init decoder stop minTokens includeStopStrInOutput).stream decodeNext
        calls).2.2.outputText := by
    cases calls with
    | nil => rfl
    | cons call rest =>
      refine stream_completes decodeNext (call :: rest) _ [] holds ⟨?_, ?_⟩
        (List.cons_ne_nil call rest)
      · rfl
      · have buffer := holds.nonneg
        simp only [init, List.length_nil] at buffer ⊢
        omega
  refine ⟨agrees, fun n => ?_⟩
  rw [← agrees]
  exact (List.take_prefix n _).flatten

def nextPiece : List String → Nat → Text × List String
  | [], _ => ([], [])
  | piece :: rest, _ => (piece.toList, rest)

/-- The stop string is completed by the second update: its first part was held back. -/
theorem streamed_text_agrees_split :
    ((init ["say E", "ND now"] ["END".toList] 0 false).stream nextPiece
        [([1], false), ([2], false)]).1 = ["say".toList, " ".toList] ∧
      ((init ["say E", "ND now"] ["END".toList] 0 false).stream nextPiece
        [([1], false), ([2], false)]).1.flatten =
      ((init ["say E", "ND now"] ["END".toList] 0 false).stream nextPiece
        [([1], false), ([2], false)]).2.2.outputText :=
  ⟨by decide +kernel, (streamed_text_agrees nextPiece ["say E", "ND now"] ["END".toList]
    (by decide +kernel) 0 false [([1], false), ([2], false)]).1⟩

/-! ## Stopped text -/

def NoStop (stop : List Text) (text : Text) : Prop := ∀ s ∈ stop, ¬ s <:+: text

/-- The stop string `s` stands at `i` and ends in the new part of the text. -/
def CompletedAt (old text s : Text) (i : Nat) : Prop :=
  s <+: text.drop i ∧ old.length < i + s.length

/-- Of the stop strings that the new part of a text completes, those listed later do not end before
the first place of the one listed first. -/
def Clear (stop : List Text) (old text : Text) : Prop :=
  ∀ earlier s later, stop = earlier ++ s :: later →
    (∀ t ∈ earlier, ∀ j, ¬ CompletedAt old text t j) →
    ∀ i, CompletedAt old text s i → (∀ j < i, ¬ CompletedAt old text s j) →
    ∀ t ∈ later, ∀ j, CompletedAt old text t j → i < j + t.length

def ClearRun (detokenizer : BaseIncrementalDetokenizer D) : List (List Nat × Bool) → Prop
  | [] => True
  | (newTokenIds, stopTerminated) :: rest =>
      Clear detokenizer.stop detokenizer.outputText
          (detokenizer.decode decodeNext newTokenIds stopTerminated).1.outputText ∧
        ((detokenizer.update decodeNext newTokenIds stopTerminated).1 = none →
          ClearRun ((detokenizer.update decodeNext newTokenIds stopTerminated).2.getNextOutputText
            rest.isEmpty true).2 rest)

theorem infix_iff_drop {s text : Text} : s <:+: text ↔ ∃ i, s <+: text.drop i := by
  rw [List.infix_iff_prefix_suffix]
  constructor
  · rintro ⟨t, isPrefix, isSuffix⟩
    exact ⟨_, List.suffix_iff_eq_drop.mp isSuffix ▸ isPrefix⟩
  · rintro ⟨i, isPrefix⟩
    exact ⟨_, isPrefix, List.drop_suffix i text⟩

/-- A stop string that the old text does not have reaches into the new part. -/
theorem NoStop.reaches {old text s : Text} {i : Nat} (clean : NoStop stop old)
    (grown : old <+: text) (member : s ∈ stop) (occurs : s <+: text.drop i) :
    old.length + 1 - s.length ≤ i := by
  by_contra before
  have inside : s.length ≤ old.length - i := by omega
  rw [List.prefix_iff_eq_take.mp grown] at clean
  refine clean s member (infix_iff_drop.mpr ⟨i, ?_⟩)
  rw [List.drop_take]
  exact List.prefix_take_iff.mpr ⟨occurs, inside⟩

theorem checkStopStrings_eq_none {text : Text} {includeInOutput : Bool}
    (nonempty : ∀ s ∈ stop, s ≠ []) (new : offset < text.length)
    (missed : checkStopStrings text (text.length - offset) stop includeInOutput = none) :
    ∀ s ∈ stop, ∀ i, offset + 1 - s.length ≤ i → ¬ s <+: text.drop i := by
  intro s member
  rw [checkStopStrings, if_neg (by omega), List.findSome?_eq_none_iff] at missed
  have none := missed s member
  rw [Option.map_eq_none_iff, pyIndex_window new (nonempty s member)] at none
  exact findFrom_eq_none none (nonempty s member)

/-- An update without a match leaves no stop string in the text, and neither does a match of a
clear update. -/
theorem update_noStop {before updated : BaseIncrementalDetokenizer D} {stopTerminated : Bool}
    {stopString : Option Text} (nonempty : ∀ s ∈ before.stop, s ≠ [])
    (noMinimum : before.minTokens = 0) (excluded : before.includeStopStrInOutput = false)
    (clear : Clear before.stop before.outputText
      (before.decode decodeNext newTokenIds stopTerminated).1.outputText)
    (clean : NoStop before.stop before.outputText)
    (isUpdate : before.update decodeNext newTokenIds stopTerminated = (stopString, updated)) :
    updated.settings = before.settings ∧ NoStop before.stop updated.outputText := by
  rw [update] at isUpdate
  split at isUpdate
  · obtain ⟨rfl, rfl⟩ := Prod.mk.inj isUpdate
    exact ⟨rfl, clean⟩
  next some =>
  have decoded := decode_decoded decodeNext newTokenIds stopTerminated before
  have counted := decode_outputTokenIds decodeNext some stopTerminated before
  generalize before.decode decodeNext newTokenIds stopTerminated = result at *
  obtain ⟨after, start⟩ := result
  change Decoded before after start at decoded
  change after.outputTokenIds ≠ [] at counted
  have isStart := decoded.unshifted noMinimum
  subst isStart
  obtain ⟨sameStop, sameMin, sameInclude, _⟩ :
      after.stop = before.stop ∧ after.minTokens = before.minTokens ∧
        after.includeStopStrInOutput = before.includeStopStrInOutput ∧
        after.stopBufferLength = before.stopBufferLength := by
    simpa [settings] using decoded.settings
  rcases applyStop_eq before.outputText.length after with ⟨missed, why⟩ |
    ⟨s, truncateTo, found, cut⟩
  · obtain ⟨rfl, rfl⟩ := Prod.mk.inj (missed.symm.trans isUpdate)
    refine ⟨decoded.settings, fun s member occurs => ?_⟩
    obtain ⟨i, occurs⟩ := infix_iff_drop.mp occurs
    have reaches := clean.reaches decoded.text member occurs
    rcases why with empty | few | missed
    · rw [← sameStop, empty] at member
      cases member
    · exact counted (List.length_eq_zero_iff.mp (by omega))
    · rw [sameStop] at missed
      by_cases new : before.outputText.length < after.outputText.length
      · exact checkStopStrings_eq_none nonempty new missed s member i reaches occurs
      · have same := decoded.text.eq_of_length_le (by omega)
        exact clean s member (same ▸ infix_iff_drop.mpr ⟨i, occurs⟩)
  · obtain ⟨rfl, rfl⟩ := Prod.mk.inj (cut.symm.trans isUpdate)
    refine ⟨decoded.settings, fun t member occurs => ?_⟩
    rw [sameStop] at found
    obtain ⟨_, earlier, later, stopIndex, isStop, isFound, isCut, others⟩ :=
      checkStopStrings_eq_some nonempty found
    rw [sameInclude, excluded, if_neg Bool.false_ne_true] at isCut
    simp only [isCut] at occurs
    obtain ⟨j, occurs⟩ := infix_iff_drop.mp occurs
    rw [List.drop_take] at occurs
    obtain ⟨occurs, before_s⟩ := List.prefix_take_iff.mp occurs
    have reaches := clean.reaches decoded.text member occurs
    have positive := List.length_pos_iff.mpr (nonempty t member)
    obtain ⟨inWindow, here, first⟩ := findFrom_eq_some isFound
    have someS := List.length_pos_iff.mpr (nonempty s (by simp [isStop]))
    -- listed earlier it would have matched, the same string matches at its first place
    rw [isStop] at member
    rcases List.mem_append.mp member with isEarlier | isLater
    · exact findFrom_eq_none (others t isEarlier) (List.length_pos_iff.mp positive) j reaches occurs
    · rcases List.mem_cons.mp isLater with rfl | isLater
      · exact first j reaches (by omega) occurs
      · have overlaps : stopIndex < j + t.length := by
          refine clear earlier s later isStop ?_ stopIndex ⟨here, by omega⟩ ?_ t isLater j
            ⟨occurs, by omega⟩
          · intro u isEarlier k ⟨atK, reachesK⟩
            exact findFrom_eq_none (others u isEarlier)
              (nonempty u (by simp [isStop, isEarlier])) k (by omega) atK
          · intro k less ⟨atK, reachesK⟩
            exact first k (by omega) less atK
        omega

theorem getNextOutputText_keeps (finished : Bool) (detokenizer : BaseIncrementalDetokenizer D) :
    (detokenizer.getNextOutputText finished true).2.settings = detokenizer.settings ∧
      (detokenizer.getNextOutputText finished true).2.outputText = detokenizer.outputText := by
  simp only [getNextOutputText, Bool.not_true, Bool.false_eq_true, if_false]
  generalize (detokenizer.outputText.length : Int) - _ = length
  split
  · exact ⟨rfl, rfl⟩
  · exact ⟨rfl, rfl⟩

theorem stream_noStop {buffer : Int} (nonempty : ∀ s ∈ stop, s ≠ [])
    (calls : List (List Nat × Bool)) :
    ∀ before : BaseIncrementalDetokenizer D, before.settings = (stop, 0, false, buffer) →
      NoStop stop before.outputText → ClearRun decodeNext before calls →
      NoStop stop (before.stream decodeNext calls).2.2.outputText := by
  induction calls with
  | nil => exact fun _ _ clean _ => clean
  | cons call rest ih =>
    intro before isSettings clean clear
    obtain ⟨newTokenIds, stopTerminated⟩ := call
    obtain ⟨rfl, noMinimum, excluded, _⟩ : before.stop = stop ∧ before.minTokens = 0 ∧
        before.includeStopStrInOutput = false ∧ before.stopBufferLength = buffer := by
      simpa [settings] using isSettings
    obtain ⟨now, later⟩ := clear
    cases isUpdate : before.update decodeNext newTokenIds stopTerminated with
    | mk stopString updated =>
      obtain ⟨same, cleaned⟩ :=
        update_noStop decodeNext nonempty noMinimum excluded now clean isUpdate
      rw [isUpdate] at later
      obtain ⟨sameNext, sameText⟩ :=
        getNextOutputText_keeps (stopString.isSome || rest.isEmpty) updated
      cases stopString with
      | some matched =>
        simp only [stream, isUpdate, Option.isSome_some, if_true]
        rw [Option.isSome_some] at sameText
        rw [sameText]
        exact cleaned
      | none =>
        rw [Option.isSome_none, Bool.false_or] at sameNext sameText
        have rest_clean := ih _ (sameNext.trans (same.trans isSettings)) (sameText ▸ cleaned)
          (later rfl)
        simpa only [stream, isUpdate, Option.isSome_none, Bool.false_or, Bool.false_eq_true,
          if_false] using rest_clean

/-- In a run of clear updates the final text contains no stop string. -/
theorem stopped_text_noStop (decoder : D) (stop : List Text) (nonempty : ∀ s ∈ stop, s ≠ [])
    (calls : List (List Nat × Bool))
    (clear : ClearRun decodeNext (init decoder stop 0 false) calls) :
    ∀ s ∈ stop, ¬ s <:+:
      ((init decoder stop 0 false).stream decodeNext calls).2.2.outputText := by
  refine stream_noStop decodeNext nonempty calls _ rfl (fun s member occurs => ?_) clear
  exact nonempty s member (List.infix_nil.mp occurs)

/-- The text is cut at the stop string listed first and keeps the other one. -/
theorem stop_string_left :
    ((init ["xab"] ["b".toList, "a".toList] 0 false).stream nextPiece [([1], false)]).2.1 =
        some "b".toList ∧
      "a".toList <:+: ((init ["xab"] ["b".toList, "a".toList] 0 false).stream nextPiece
        [([1], false)]).2.2.outputText := by
  decide +kernel

theorem clear_pair {s t old text : Text}
    (overlaps : ∀ j, CompletedAt old text t j → ∃ i < j + t.length, CompletedAt old text s i) :
    Clear [s, t] old text := by
  intro earlier u later isStop _ i _ first v isLater j completed
  cases earlier with
  | nil =>
    cases isStop
    cases List.mem_singleton.mp isLater
    obtain ⟨k, below, isCompleted⟩ := overlaps j completed
    have notBefore := mt (first k) (not_not.mpr isCompleted)
    omega
  | cons w earlier =>
    have count := congrArg List.length isStop
    simp only [List.length_cons, List.length_append, List.length_nil] at count
    rw [List.length_eq_zero_iff.mp (show later.length = 0 by omega)] at isLater
    cases isLater

/-- Both stop strings are completed by the second update, and the text is cut before them. -/
theorem stopped_text_noStop_two :
    ((init ["xx", "bab"] ["b".toList, "a".toList] 0 false).stream nextPiece
        [([1], false), ([2], false)]).2.1 = some "b".toList ∧
      ∀ s ∈ ["b".toList, "a".toList], ¬ s <:+: ((init ["xx", "bab"] ["b".toList, "a".toList] 0
        false).stream nextPiece [([1], false), ([2], false)]).2.2.outputText := by
  refine ⟨by decide +kernel, stopped_text_noStop nextPiece _ _ (by decide +kernel) _ ?_⟩
  refine ⟨clear_pair fun j ⟨occurs, _⟩ => ?_, fun _ => ⟨clear_pair fun j ⟨_, reaches⟩ => ?_,
    fun _ => trivial⟩⟩
  · exact absurd (infix_iff_drop.mpr ⟨j, occurs⟩) (by decide +kernel)
  · exact ⟨2, reaches, by decide +kernel, by decide +kernel⟩

end BaseIncrementalDetokenizer

end Kalypso.Engine
