import Mathlib.Data.List.Infix
import Mathlib.Order.Bounds.Basic

/-!
# N-gram drafting

`_find_longest_matched_ngram_and_propose_tokens` reverses the tokens and looks for the longest
prefix, of at most `max_ngram` tokens, that occurs again.  `lps` holds the longest proper border of
each of the first `max_ngram` prefixes; a longer table is not needed, since a match is never
extended beyond `max_ngram`.
-/

set_option autoImplicit false

namespace Kalypso.Engine

variable {T : Type}

structure NgramScan where
  lps : List Nat
  longestNgram : Nat
  position : Nat
  prevLps : Nat
  i : Nat

section Model

variable [DecidableEq T]

/-- One round of the loop, `none` for an access outside an array. -/
def NgramScan.step (maxNgram : Nat) (tokens : List T) (s : NgramScan) : Option NgramScan := do
  let expected ← tokens[s.prevLps]?
  let token ← tokens[s.i]?
  if expected = token then
    let prevLps := s.prevLps + 1
    let lps := if s.i < maxNgram then s.lps.set s.i prevLps else s.lps
    (if prevLps = maxNgram then lps[maxNgram - 1]? else some prevLps).map fun next =>
      { lps
        longestNgram := if s.longestNgram ≤ prevLps then prevLps else s.longestNgram
        position := if s.longestNgram ≤ prevLps then s.i else s.position
        prevLps := next
        i := s.i + 1 }
  else if s.prevLps ≠ 0 then
    s.lps[s.prevLps - 1]?.map fun prevLps => { s with prevLps }
  else some { s with i := s.i + 1 }

/-- The loop, `none` if the rounds do not suffice. -/
def NgramScan.run (maxNgram : Nat) (tokens : List T) : Nat → NgramScan → Option NgramScan
  | 0, s => if s.i < tokens.length then none else some s
  | rounds + 1, s =>
      if s.i < tokens.length then (s.step maxNgram tokens).bind (run maxNgram tokens rounds)
      else some s

def findLongestMatchedNgramAndProposeTokens (rounds : Nat) (originTokens : List T)
    (minNgram maxNgram : Nat) (maxModelLen k : Int) : Option (List T) :=
  let totalToken := originTokens.length
  if totalToken < minNgram then some []
  else
    let k := min k (maxModelLen - totalToken)
    if k ≤ 0 then some []
    else do
      let s ← NgramScan.run maxNgram originTokens.reverse rounds
        ⟨List.replicate maxNgram 0, 0, 0, 0, 1⟩
      if s.longestNgram < minNgram then return []
      else
        let startPosition := totalToken - 1 - s.position + s.longestNgram
        let k := min k.toNat (totalToken - startPosition)
        return (originTokens.drop startPosition).take k

end Model

/-- The last `v` tokens occur at `p` as well, before their own place. -/
def OccursEarlier (originTokens : List T) (v p : Nat) : Prop :=
  p + v < originTokens.length ∧
    originTokens.drop (originTokens.length - v) <+: originTokens.drop p

/-! ## Borders -/

def Ends (tokens : List T) (v n : Nat) : Prop := tokens.take v <:+ tokens.take n

variable {tokens : List T} {maxNgram v w n : Nat}

theorem ends_zero (tokens : List T) (n : Nat) : Ends tokens 0 n := List.nil_suffix

theorem Ends.trans (inner : Ends tokens v w) (outer : Ends tokens w n) : Ends tokens v n :=
  List.IsSuffix.trans inner outer

theorem Ends.shorter (short : Ends tokens v n) (long : Ends tokens w n) (le : v ≤ w) :
    Ends tokens v w := by
  refine List.suffix_of_suffix_length_le short long ?_
  rw [List.length_take, List.length_take]
  omega

theorem ends_succ (inside : n < tokens.length) (le : v ≤ n) :
    Ends tokens (v + 1) (n + 1) ↔ Ends tokens v n ∧ tokens[v]? = tokens[n]? := by
  have inside' : v < tokens.length := by omega
  rw [Ends, Ends, List.take_succ_eq_append_getElem inside, List.take_succ_eq_append_getElem inside',
    ← List.reverse_prefix, List.reverse_concat, List.reverse_concat, List.cons_prefix_cons,
    List.reverse_prefix, List.getElem?_eq_getElem inside, List.getElem?_eq_getElem inside',
    Option.some.injEq]
  exact And.comm

theorem ends_reverse {originTokens : List T} {j : Nat} (le : v ≤ j)
    (inside : j < originTokens.length) : Ends originTokens.reverse v (j + 1) ↔
      OccursEarlier originTokens v (originTokens.length - 1 - j) := by
  have earlier : originTokens.length - 1 - j + v < originTokens.length := by omega
  rw [Ends, List.take_reverse, List.take_reverse, List.reverse_suffix, OccursEarlier,
    and_iff_right earlier, Nat.sub_sub, Nat.add_comm 1 j]

/-! ## The scan -/

structure NgramScan.Inv (maxNgram : Nat) (tokens : List T) (s : NgramScan) : Prop where
  size : s.lps.length = maxNgram
  positive : 0 < s.i
  inside : s.i ≤ tokens.length
  table : ∀ j v, j < s.i → s.lps[j]? = some v →
    IsGreatest {v | v ≤ j ∧ Ends tokens v (j + 1)} v
  unset : ∀ j v, s.i ≤ j → s.lps[j]? = some v → v = 0
  border : s.prevLps < s.i ∧ s.prevLps < maxNgram ∧ Ends tokens s.prevLps s.i
  tried : ∀ v, s.prevLps < v → v < s.i → v < maxNgram → Ends tokens v s.i →
    tokens[v]? ≠ tokens[s.i]?
  found : 0 < s.longestNgram → s.longestNgram ≤ maxNgram ∧ s.longestNgram ≤ s.position ∧
    s.position < s.i ∧ Ends tokens s.longestNgram (s.position + 1)
  best : ∀ v j, 0 < v → v ≤ maxNgram → v ≤ j → j < s.i → Ends tokens v (j + 1) →
    v ≤ s.longestNgram ∧ (v = s.longestNgram → j ≤ s.position)

namespace NgramScan

variable {s s' : NgramScan}

/-- The index goes on once the longest match `m` that ends there is known. -/
theorem Inv.advance (inv : s.Inv maxNgram tokens) (inside : s.i < tokens.length) {m : Nat}
    (longest : IsGreatest {v | v ≤ maxNgram ∧ v ≤ s.i ∧ Ends tokens v (s.i + 1)} m)
    (next : IsGreatest {v | v < maxNgram ∧ v ≤ s.i ∧ Ends tokens v (s.i + 1)} s'.prevLps)
    (isIndex : s'.i = s.i + 1) (size : s'.lps.length = maxNgram)
    (entries : ∀ j v, s'.lps[j]? = some v → (j ≠ s.i ∧ s.lps[j]? = some v) ∨ (j = s.i ∧ v = m))
    (record : (0 < m ∧ s.longestNgram ≤ m ∧ s'.longestNgram = m ∧ s'.position = s.i) ∨
      ((m = 0 ∨ m < s.longestNgram) ∧ s'.longestNgram = s.longestNgram ∧
        s'.position = s.position)) : s'.Inv maxNgram tokens := by
  obtain ⟨⟨small, fits, ends⟩, most⟩ := longest
  obtain ⟨⟨small', fits', ends'⟩, most'⟩ := next
  refine ⟨size, by omega, by omega, ?_, ?_, ⟨by omega, small', isIndex ▸ ends'⟩, ?_, ?_, ?_⟩
  · intro j v before entry
    have room := (List.getElem?_eq_some_iff.mp entry).1
    rcases entries j v entry with ⟨other, old⟩ | ⟨rfl, rfl⟩
    · exact inv.table j v (by omega) old
    · exact ⟨⟨fits, ends⟩, fun w ⟨le, isEnd⟩ => most ⟨by omega, le, isEnd⟩⟩
  · intro j v after entry
    rcases entries j v entry with ⟨other, old⟩ | ⟨rfl, -⟩
    · exact inv.unset j v (by omega) old
    · omega
  · intro v more less bound isEnd
    rw [isIndex] at isEnd
    have := most' ⟨bound, by omega, isEnd⟩
    omega
  · intro some
    rcases record with ⟨positive, -, isLongest, isPosition⟩ | ⟨-, isLongest, isPosition⟩
    · rw [isLongest, isPosition]
      exact ⟨small, fits, by omega, ends⟩
    · rw [isLongest] at some ⊢
      rw [isPosition]
      obtain ⟨bound, le, before, isEnd⟩ := inv.found some
      exact ⟨bound, le, by omega, isEnd⟩
  · intro v j positive bound le before isEnd
    by_cases here : j = s.i
    · subst here
      have := most ⟨bound, le, isEnd⟩
      omega
    · have := inv.best v j positive bound le (by omega) isEnd
      omega

/-- A match that continues one at `i` has been tried, unless it continues the current one. -/
theorem Inv.continues (inv : s.Inv maxNgram tokens) (inside : s.i < tokens.length) {v : Nat}
    (bound : v ≤ maxNgram) (le : v ≤ s.i) (isEnd : Ends tokens v (s.i + 1)) :
    v ≤ s.prevLps ∨ (v = s.prevLps + 1 ∧ tokens[s.prevLps]? = tokens[s.i]?) := by
  cases v with
  | zero => exact .inl (Nat.zero_le _)
  | succ v =>
    obtain ⟨isEnd, same⟩ := (ends_succ inside (by omega)).mp isEnd
    rcases Nat.lt_trichotomy v s.prevLps with less | rfl | more
    · exact .inl less
    · exact .inr ⟨rfl, same⟩
    · exact absurd same (inv.tried v more (by omega) (by omega) isEnd)

/-- A match of `max_ngram` tokens falls back to its own longest border, which is in the table. -/
theorem Inv.fallback (inv : s.Inv maxNgram tokens) {m : Nat} (positive : 0 < m)
    (longest : IsGreatest {v | v ≤ maxNgram ∧ v ≤ s.i ∧ Ends tokens v (s.i + 1)} m) :
    ∃ next ≤ m, (if m = maxNgram then
        (if s.i < maxNgram then s.lps.set s.i m else s.lps)[maxNgram - 1]? else some m) =
          some next ∧
      IsGreatest {v | v < maxNgram ∧ v ≤ s.i ∧ Ends tokens v (s.i + 1)} next := by
  obtain ⟨⟨small, fits, ends⟩, most⟩ := longest
  by_cases full : m = maxNgram
  · subst full
    have inTable : m - 1 < s.lps.length := by
      have := inv.size
      omega
    obtain ⟨⟨le, border⟩, longer⟩ :=
      inv.table (m - 1) _ (by omega) (List.getElem?_eq_getElem inTable)
    rw [Nat.sub_add_cancel positive] at border longer
    rw [if_pos rfl, if_neg (by omega), List.getElem?_eq_getElem inTable]
    refine ⟨_, by omega, rfl, ⟨by omega, by omega, border.trans ends⟩, ?_⟩
    rintro v ⟨bound, -, isEnd⟩
    exact longer ⟨by omega, isEnd.shorter ends (by omega)⟩
  · refine ⟨m, Nat.le_refl m, if_neg full, ⟨by omega, fits, ends⟩, ?_⟩
    rintro v ⟨bound, le, isEnd⟩
    exact most ⟨by omega, le, isEnd⟩

/-- Before the loop nothing is known but that the first token has no proper border. -/
theorem inv_init (some : tokens ≠ []) (positive : 0 < maxNgram) :
    Inv maxNgram tokens ⟨List.replicate maxNgram 0, 0, 0, 0, 1⟩ where
  size := List.length_replicate
  positive := Nat.one_pos
  inside := List.length_pos_iff.mpr some
  table := by
    intro j v before entry
    obtain rfl : j = 0 := by simpa using before
    obtain rfl : v = 0 := List.eq_of_mem_replicate (List.mem_of_getElem? entry)
    exact ⟨⟨Nat.le_refl 0, ends_zero tokens _⟩, fun v inSet => inSet.1⟩
  unset := fun j v _ entry => List.eq_of_mem_replicate (List.mem_of_getElem? entry)
  border := ⟨Nat.one_pos, positive, ends_zero tokens _⟩
  tried := fun v more less => by dsimp only at more less; omega
  found := fun some => absurd some (Nat.lt_irrefl 0)
  best := fun v j positive _ le before => by dsimp only at before; omega

variable [DecidableEq T]

/-- A round stays inside the arrays, keeps the invariant and makes progress. -/
theorem Inv.step (inv : s.Inv maxNgram tokens) (inside : s.i < tokens.length) :
    ∃ s', s.step maxNgram tokens = some s' ∧ s'.Inv maxNgram tokens ∧
      2 * (tokens.length - s'.i) + s'.prevLps < 2 * (tokens.length - s.i) + s.prevLps := by
  obtain ⟨before, small, ends⟩ := inv.border
  have size := inv.size
  have prevInside : s.prevLps < tokens.length := by omega
  have atPrev := List.getElem?_eq_getElem prevInside
  have atIndex := List.getElem?_eq_getElem inside
  simp only [NgramScan.step, atPrev, atIndex, Option.bind_eq_bind, Option.bind_some]
  by_cases same : tokens[s.prevLps] = tokens[s.i]
  · -- the current match goes on by one token
    have longest : IsGreatest {v | v ≤ maxNgram ∧ v ≤ s.i ∧ Ends tokens v (s.i + 1)}
        (s.prevLps + 1) := by
      refine ⟨⟨small, before, (ends_succ inside (by omega)).mpr ⟨ends, ?_⟩⟩, ?_⟩
      · rw [atPrev, atIndex, same]
      · rintro v ⟨bound, le, isEnd⟩
        have := inv.continues inside bound le isEnd
        omega
    have positive : 0 < s.prevLps + 1 := Nat.succ_pos _
    obtain ⟨next, le, isNext, greatest⟩ := inv.fallback positive longest
    rw [if_pos same, isNext]
    refine ⟨_, rfl, inv.advance inside longest greatest rfl ?_ ?_ ?_, ?_⟩
    · dsimp only
      split
      · rw [List.length_set, size]
      · exact size
    · intro j v entry
      dsimp only at entry
      split at entry
      · rw [List.getElem?_set] at entry
        split at entry
        · next here =>
          split at entry
          · cases entry
            exact .inr ⟨here.symm, rfl⟩
          · cases entry
        · next other => exact .inl ⟨Ne.symm other, entry⟩
      · have := (List.getElem?_eq_some_iff.mp entry).1
        exact .inl ⟨by omega, entry⟩
    · dsimp only
      split
      · next longer => exact .inl ⟨positive, longer, rfl, rfl⟩
      · next shorter => exact .inr ⟨.inr (by omega), rfl, rfl⟩
    · dsimp only
      omega
  · rw [if_neg same]
    by_cases none : s.prevLps = 0
    · -- no match ends here
      have longest : IsGreatest {v | v ≤ maxNgram ∧ v ≤ s.i ∧ Ends tokens v (s.i + 1)} 0 := by
        refine ⟨⟨Nat.zero_le _, Nat.zero_le _, ends_zero tokens _⟩, ?_⟩
        rintro v ⟨bound, le, isEnd⟩
        rcases inv.continues inside bound le isEnd with less | ⟨-, matched⟩
        · omega
        · rw [atPrev, atIndex, Option.some.injEq] at matched
          exact absurd matched same
      have greatest : IsGreatest {v | v < maxNgram ∧ v ≤ s.i ∧ Ends tokens v (s.i + 1)}
          s.prevLps := by
        rw [none]
        exact ⟨⟨by omega, longest.1.2⟩, fun v ⟨bound, rest⟩ => longest.2 ⟨Nat.le_of_lt bound, rest⟩⟩
      rw [if_neg (not_not.mpr none)]
      refine ⟨_, rfl,
        inv.advance inside longest greatest rfl size ?_ (.inr ⟨.inl rfl, rfl, rfl⟩), ?_⟩
      · intro j v entry
        by_cases here : j = s.i
        · exact .inr ⟨here, inv.unset j v (by omega) entry⟩
        · exact .inl ⟨here, entry⟩
      · dsimp only
        omega
    · -- the next shorter border is tried
      have inTable : s.prevLps - 1 < s.lps.length := by omega
      obtain ⟨⟨le, border⟩, longer⟩ :=
        inv.table (s.prevLps - 1) _ (by omega) (List.getElem?_eq_getElem inTable)
      rw [Nat.sub_add_cancel (by omega)] at border longer
      rw [if_pos none, List.getElem?_eq_getElem inTable]
      refine ⟨_, rfl, { inv with border := ?_, tried := ?_ }, ?_⟩
      · exact ⟨by dsimp only; omega, by dsimp only; omega, border.trans ends⟩
      · intro v more less bound isEnd
        rcases Nat.lt_trichotomy v s.prevLps with shorter | rfl | more'
        · have := longer ⟨by omega, isEnd.shorter ends (by omega)⟩
          dsimp only at more
          omega
        · rw [atPrev, atIndex, Ne, Option.some.injEq]
          exact same
        · exact inv.tried v more' less bound isEnd
      · dsimp only
        omega

theorem Inv.run (rounds : Nat) : ∀ s : NgramScan, s.Inv maxNgram tokens →
    2 * (tokens.length - s.i) + s.prevLps ≤ rounds →
      ∃ s', NgramScan.run maxNgram tokens rounds s = some s' ∧ s'.Inv maxNgram tokens ∧
        s'.i = tokens.length := by
  induction rounds with
  | zero =>
    intro s inv enough
    have inside := inv.inside
    exact ⟨s, if_neg (by omega), inv, by omega⟩
  | succ rounds ih =>
    intro s inv enough
    rw [NgramScan.run]
    split
    · next inside =>
      obtain ⟨next, isStep, inv', less⟩ := inv.step inside
      rw [isStep, Option.bind_some]
      exact ih next inv' (by omega)
    · next outside =>
      have inside := inv.inside
      exact ⟨s, rfl, inv, by omega⟩

end NgramScan

/-- The draft is what an exhaustive search finds: what follows the earliest earlier occurrence of
the longest suffix that has one. -/
theorem findLongestMatchedNgram_eq_search [DecidableEq T] (originTokens : List T)
    (minNgram maxNgram : Nat) (positive : 1 ≤ minNgram) (ordered : minNgram ≤ maxNgram)
    (maxModelLen k : Int) (rounds : Nat) (enough : 2 * originTokens.length ≤ rounds) :
    ∃ draft, findLongestMatchedNgramAndProposeTokens rounds originTokens minNgram maxNgram
        maxModelLen k = some draft ∧
      ((∀ v p, minNgram ≤ v → v ≤ maxNgram → ¬ OccursEarlier originTokens v p) → draft = []) ∧
      ∀ v p, IsGreatest {v | minNgram ≤ v ∧ v ≤ maxNgram ∧ ∃ p, OccursEarlier originTokens v p} v →
        IsLeast {p | OccursEarlier originTokens v p} p →
        draft = (originTokens.drop (p + v)).take
          (min k (maxModelLen - originTokens.length)).toNat := by
  unfold findLongestMatchedNgramAndProposeTokens
  dsimp only
  split
  · next short =>
    refine ⟨[], rfl, fun _ => rfl, fun v p longest earliest => ?_⟩
    have := longest.1.1
    have := earliest.1.1
    omega
  split
  · next noRoom =>
    refine ⟨[], rfl, fun _ => rfl, fun v p _ _ => ?_⟩
    rw [Int.toNat_of_nonpos noRoom, List.take_zero]
  next long room =>
  have some : originTokens.reverse ≠ [] := by
    rw [Ne, List.reverse_eq_nil_iff, ← List.length_eq_zero_iff]
    omega
  have start : NgramScan.Inv maxNgram originTokens.reverse _ :=
    NgramScan.inv_init some (by omega)
  obtain ⟨s, isRun, inv, atEnd⟩ := start.run rounds _
    (by rw [List.length_reverse]; dsimp only; omega)
  rw [List.length_reverse] at atEnd
  -- an earlier occurrence is a border of a prefix of the reversed tokens
  have best : ∀ v p, 0 < v → v ≤ maxNgram → OccursEarlier originTokens v p → v ≤ s.longestNgram ∧
      (v = s.longestNgram → originTokens.length - 1 - s.position ≤ p) := by
    intro v p positive bound occurs
    have inside := occurs.1
    have isEnd : Ends originTokens.reverse v (originTokens.length - 1 - p + 1) :=
      (ends_reverse (by omega) (by omega)).mpr (by rwa [Nat.sub_sub_self (by omega)])
    have := inv.best v _ positive bound (by omega) (by omega) isEnd
    omega
  rw [isRun, Option.bind_eq_bind, Option.bind_some]
  split
  · next missed =>
    refine ⟨[], rfl, fun _ => rfl, fun v p longest earliest => ?_⟩
    have := (best v p (by have := longest.1.1; omega) longest.1.2.1 earliest.1).1
    have := longest.1.1
    omega
  · next found =>
    obtain ⟨bound, le, before, isEnd⟩ := inv.found (by omega)
    have occurs := (ends_reverse le (by omega)).mp isEnd
    refine ⟨_, rfl, fun none => ?_, fun v p longest earliest => ?_⟩
    · exact absurd occurs (none _ _ (by omega) bound)
    · obtain rfl : v = s.longestNgram := Nat.le_antisymm
        (best v p (by have := longest.1.1; omega) longest.1.2.1 earliest.1).1
        (longest.2 ⟨by omega, bound, _, occurs⟩)
      obtain rfl : p = originTokens.length - 1 - s.position := Nat.le_antisymm
        (earliest.2 occurs) ((best _ p (by omega) bound earliest.1).2 rfl)
      rw [Nat.min_comm, ← List.length_drop, ← List.take_take]
      exact List.take_of_length_le (by rw [List.length_take]; omega)

instance [DecidableEq T] (originTokens : List T) (v p : Nat) :
    Decidable (OccursEarlier originTokens v p) := inferInstanceAs (Decidable (_ ∧ _))

/-- The last three tokens occur at place 2, where they overlap with the suffix. -/
theorem findLongestMatchedNgram_eq_search_overlap :
    findLongestMatchedNgramAndProposeTokens 16 [1, 2, 3, 1, 2, 3, 1, 2] 1 3 100 2 =
      some (([1, 2, 3, 1, 2, 3, 1, 2].drop (2 + 3)).take 2) := by
  obtain ⟨draft, isDraft, -, follows⟩ := findLongestMatchedNgram_eq_search
    [1, 2, 3, 1, 2, 3, 1, 2] 1 3 (by decide) (by decide) 100 2 16 (by decide)
  rw [isDraft, follows 3 2 ⟨⟨by decide, by decide, 2, by decide⟩, fun v occurs => occurs.2.1⟩ ?_]
  · rfl
  · refine ⟨by decide, fun p occurs => ?_⟩
    by_contra earlier
    have none : ∀ p < 2, ¬ OccursEarlier [1, 2, 3, 1, 2, 3, 1, 2] 3 p := by decide
    exact none p (Nat.lt_of_not_le earlier) occurs

end Kalypso.Engine
