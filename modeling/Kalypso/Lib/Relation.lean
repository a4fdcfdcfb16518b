import Mathlib.Logic.Relation
import Mathlib.Data.List.Nodup

/-!
# Descent in a forest

A relation that only ever grows by edges into fresh nodes: such an edge makes new leaves and
creates no new connection between old nodes.  In a forest, where every node has at most one
predecessor, a path from a root never comes back to a node.
-/

set_option autoImplicit false

namespace Kalypso.Lib

variable {κ : Type*} {old new : κ → κ → Prop} {parent : κ} {leaf : κ → Prop}

/-- With new edges from `parent` to fresh leaves only, a descent is an old one or ends in one
of the new leaves, below `parent`. -/
theorem transGen_of_leaves (edges : ∀ a b, new a b → old a b ∨ (a = parent ∧ leaf b))
    (fresh : ∀ a b, leaf a → ¬ old a b) (notLeaf : ¬ leaf parent) {a b : κ}
    (descent : Relation.TransGen new a b) :
    Relation.TransGen old a b ∨ (leaf b ∧ (a = parent ∨ Relation.TransGen old a parent)) := by
  induction descent with
  | single edge =>
    rcases edges _ _ edge with isOld | ⟨fromParent, isLeaf⟩
    · exact Or.inl (Relation.TransGen.single isOld)
    · exact Or.inr ⟨isLeaf, Or.inl fromParent⟩
  | tail descent edge ih =>
    rcases edges _ _ edge with isOld | ⟨rfl, isLeaf⟩
    · rcases ih with before | ⟨middleLeaf, -⟩
      · exact Or.inl (before.tail isOld)
      · exact absurd isOld (fresh _ _ middleLeaf)
    · rcases ih with before | ⟨middleLeaf, -⟩
      · exact Or.inr ⟨isLeaf, Or.inr before⟩
      · exact absurd middleLeaf notLeaf

theorem not_transGen_of_no_edge {a b : κ} (none : ∀ c, ¬ old a c) :
    ¬ Relation.TransGen old a b := by
  intro descent
  obtain ⟨c, edge, -⟩ := Relation.TransGen.head'_iff.mp descent
  exact none c edge

theorem isChain_append_last {edge : κ → κ → Prop} {rest : List κ} :
    ∀ (first : κ) (path : List κ), List.IsChain edge (first :: path) →
      List.IsChain edge (path.getLast?.getD first :: rest) →
        List.IsChain edge (first :: (path ++ rest)) := by
  intro first path
  induction path generalizing first with
  | nil => exact fun _ continued => continued
  | cons next path ih =>
    intro chain continued
    rw [List.isChain_cons_cons] at chain
    rw [List.getLast?_cons, Option.getD_some] at continued
    exact List.isChain_cons_cons.mpr ⟨chain.1, ih next chain.2 continued⟩

section

variable {edge : κ → κ → Prop} {root : κ} (unique : ∀ a b c, edge a c → edge b c → a = b)
  (isRoot : ∀ a, ¬ edge a root)

include unique isRoot

/-- In the chains from a root, along edges that determine their source, a node has one place. -/
theorem isChain_place {path path' : List κ} (chain : List.IsChain edge (root :: path))
    (chain' : List.IsChain edge (root :: path')) :
    ∀ {i j : Nat} {node : κ}, (root :: path)[i]? = some node → (root :: path')[j]? = some node →
      i = j := by
  have edges := List.isChain_iff_getElem.mp chain
  have edges' := List.isChain_iff_getElem.mp chain'
  intro i
  induction i with
  | zero =>
    intro j node atI atJ
    cases j with
    | zero => rfl
    | succ j =>
      obtain ⟨inside, isNode⟩ := List.getElem?_eq_some_iff.mp atJ
      obtain rfl : root = node := Option.some.inj atI
      have intoRoot := edges' j inside
      rw [isNode] at intoRoot
      exact absurd intoRoot (isRoot _)
  | succ i ih =>
    intro j node atI atJ
    obtain ⟨inside, isNode⟩ := List.getElem?_eq_some_iff.mp atI
    have last := edges i inside
    rw [isNode] at last
    cases j with
    | zero =>
      obtain rfl : root = node := Option.some.inj atJ
      exact absurd last (isRoot _)
    | succ j =>
      obtain ⟨inside', isNode'⟩ := List.getElem?_eq_some_iff.mp atJ
      have last' := edges' j inside'
      rw [isNode'] at last'
      have sources := unique _ _ _ last last'
      have same := ih (List.getElem?_eq_getElem (by omega))
        ((List.getElem?_eq_getElem (by omega)).trans (congrArg some sources.symm))
      rw [same]

theorem nodup_of_isChain {path : List κ} (chain : List.IsChain edge (root :: path)) :
    (root :: path).Nodup := by
  refine List.nodup_iff_getElem?_ne_getElem?.mpr fun i j before inside same => ?_
  have place := isChain_place unique isRoot chain chain (List.getElem?_eq_getElem (by omega))
    (same.symm.trans (List.getElem?_eq_getElem (by omega)))
  omega

end

end Kalypso.Lib
