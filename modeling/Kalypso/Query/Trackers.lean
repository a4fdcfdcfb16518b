import Mathlib.Algebra.BigOperators.Group.Multiset.Basic
import Mathlib.Algebra.Order.BigOperators.Group.Multiset
import Kalypso.Query.View

/-!
# What a join tracker counts

The load of a tracker is the number of its finish signals that are still to come: one for
every occurrence in the tracker list of a live task, and one for every signal under way.  A
fan-out multiplies the load of all trackers the task has inherited, while only the new
tracker is set to the width of the fan-out.  So the pending count is at most the load, and
the two agree as long as no tracked task has more than one successor.
-/

set_option autoImplicit false

namespace Kalypso.Query

open Kalypso.Lib

variable {α : Type}

def View.load (v : View α) (k : TrackerId) : Nat :=
  (v.live.map fun task => task.trackers.count k).sum + v.finishing.count k

namespace View

variable {v : View α} {task : Task α} {live : Multiset (Task α)} {k : TrackerId}

/-- A task that ends hands its tracker list over to the signals under way. -/
theorem load_leave (v' : View α) (leaves : v.live = task ::ₘ live) (liveEq : v'.live = live)
    (finishingEq : v'.finishing = task.trackers + v.finishing) : v'.load k = v.load k := by
  simp only [load, leaves, liveEq, finishingEq, Multiset.map_cons, Multiset.sum_cons,
    Multiset.count_add, Multiset.coe_count]
  omega

theorem load_raise (v' : View α) (leaves : v.live = task ::ₘ live) (liveEq : v'.live = live)
    (finishingEq : v'.finishing = v.finishing) : v'.load k ≤ v.load k := by
  simp only [load, leaves, liveEq, finishingEq, Multiset.map_cons, Multiset.sum_cons]
  omega

theorem sum_count_children {nextTaskId : TaskId} {trackers : List TrackerId}
    {positions : List (Position α)} {children : List (Task α)}
    (fresh : Children nextTaskId trackers positions children) :
    ((children : Multiset (Task α)).map fun child => child.trackers.count k).sum =
      positions.length * trackers.count k := by
  have same : (children : Multiset (Task α)).map (fun child => child.trackers.count k) =
      (children : Multiset (Task α)).map fun _ => trackers.count k := by
    apply Multiset.map_congr rfl
    intro child member
    rw [fresh.trackers child (Multiset.mem_coe.mp member)]
  rw [same, Multiset.map_const', Multiset.sum_replicate, Multiset.coe_card, fresh.length_eq]
  rfl

/-- Children with the tracker list `trackers` take the place of `task`. -/
theorem load_spawn (v' : View α) (leaves : v.live = task ::ₘ live) {trackers : List TrackerId}
    {positions : List (Position α)} {children : List (Task α)}
    (fresh : Children v.nextTaskId trackers positions children)
    (liveEq : v'.live = children + live) (finishingEq : v'.finishing = v.finishing) :
    v'.load k + task.trackers.count k =
      v.load k + positions.length * trackers.count k := by
  simp only [load, leaves, liveEq, finishingEq, Multiset.map_cons, Multiset.sum_cons,
    Multiset.map_add, Multiset.sum_add, sum_count_children fresh]
  omega

theorem load_childFinished (v' : View α) {j : TrackerId} {finishing : Multiset TrackerId}
    (told : v.finishing = j ::ₘ finishing) (liveEq : v'.live = v.live)
    (finishingEq : v'.finishing = finishing) : v'.load k + (if k = j then 1 else 0) = v.load k := by
  simp only [load, told, liveEq, finishingEq, Multiset.count_cons]
  omega

theorem load_unknown (sound : v.Sound) (unknown : v.trackers.length ≤ k) : v.load k = 0 := by
  have notCarried : ∀ t ∈ v.live, t.trackers.count k = 0 := by
    intro t member
    apply List.count_eq_zero_of_not_mem
    intro carried
    exact absurd (sound.trackers_lt t member k carried) (Nat.not_lt.mpr unknown)
  have notFinishing : v.finishing.count k = 0 := by
    apply Multiset.count_eq_zero_of_notMem
    intro member
    exact absurd (sound.finishing_lt k member) (Nat.not_lt.mpr unknown)
  rw [load, notFinishing, Multiset.map_congr rfl notCarried]
  simp

theorem not_carried_of_load_zero (zero : v.load k = 0) {t : Task α} (member : t ∈ v.live) :
    k ∉ t.trackers := by
  intro carried
  have positive : 0 < t.trackers.count k := List.count_pos_iff.mpr carried
  have bound : t.trackers.count k ≤ (v.live.map fun task => task.trackers.count k).sum :=
    Multiset.single_le_sum (fun _ _ => Nat.zero_le _) _ (Multiset.mem_map_of_mem _ member)
  simp only [load] at zero
  omega

end View

/-! ## The pending count against the load -/

/-- The trackers after an effect that does not signal any: the old ones, and possibly one
more at the end. -/
theorem getElem?_snoc_cases {β : Type} {l : List β} {b x : β} {i : Nat}
    (found : (l ++ [b])[i]? = some x) : l[i]? = some x ∨ (i = l.length ∧ x = b) := by
  rcases Nat.lt_or_ge i l.length with old | new
  · left
    rwa [List.getElem?_append_left old] at found
  · right
    rw [List.getElem?_append_right new] at found
    obtain ⟨bound, rfl⟩ := List.getElem?_eq_some_iff.mp found
    simp only [List.length_singleton] at bound
    exact ⟨by omega, by simp⟩

/-- A tracker never waits for more signals than are still to come, unless a task has raised. -/
def View.PendingLeLoad (v : View α) : Prop :=
  v.failing = false → ∀ (k : TrackerId) (tracker : JoinTracker),
    v.trackers[k]? = some tracker → tracker.pendingChildren ≤ v.load k

def View.LoadLePending (v : View α) : Prop :=
  ∀ (k : TrackerId) (tracker : JoinTracker),
    v.trackers[k]? = some tracker → (v.load k : Int) ≤ tracker.pendingChildren

/-- No live task that carries a tracker has more than one successor. -/
def View.Narrow (stages : List (Stage α)) (v : View α) : Prop :=
  ∀ task ∈ v.live, task.trackers ≠ [] → ∀ stage, stages[task.stageIndex]? = some stage →
    ∀ positions, stage.successors task.position = some positions → positions.length ≤ 1

theorem narrow_of_fanout_le_one {stages : List (Stage α)} {v : View α}
    (thin : ∀ task ∈ v.live, task.trackers ≠ [] → ∀ stage, stages[task.stageIndex]? = some stage →
      ∀ ctx, (stage.fanout ctx).length ≤ 1) : v.Narrow stages := by
  intro task live tracked stage found positions goes
  have own := thin task live tracked stage found
  unfold Stage.successors at goes
  split at goes
  · cases goes
  · cases goes
    exact Nat.le_refl 1
  · cases goes
    exact Nat.zero_le 1
  · cases goes
    rw [List.length_map]
    exact own _

section Effect

variable {stages : List (Stage α)} {kv kv' : KVMemoryManager} {v v' : View α}

theorem pending_childFinished {trackers : List JoinTracker} {k j : TrackerId}
    {tracker other : JoinTracker} (found : trackers[k]? = some tracker)
    (atIndex : (trackers.set k tracker.afterChild)[j]? = some other) :
    ∃ before, trackers[j]? = some before ∧
      other.pendingChildren = before.pendingChildren - if j = k then 1 else 0 := by
  by_cases same : j = k
  · subst same
    rw [List.getElem?_set_self (List.getElem?_eq_some_iff.mp found).1] at atIndex
    cases atIndex
    exact ⟨tracker, found, by simp [JoinTracker.afterChild]⟩
  · rw [List.getElem?_set_ne (Ne.symm same)] at atIndex
    exact ⟨other, atIndex, by simp [same]⟩

/-- What an effect does to the load of a tracker: a new tracker waits for all of it, a task that
raises lowers it, and otherwise load and pending count change together, unless successors take the
place of a task. -/
theorem Effect.load_cases (effect : Effect stages kv v kv' v') (sound : v.Sound) {k : TrackerId}
    {tracker : JoinTracker} (found : v'.trackers[k]? = some tracker) :
    (v'.load k : Int) = tracker.pendingChildren ∨
      ∃ old, v.trackers[k]? = some old ∧
        ((v'.failing = true ∧ v'.load k ≤ v.load k ∧
            tracker.pendingChildren = old.pendingChildren) ∨
          (v'.failing = v.failing ∧
            ((v'.load k - tracker.pendingChildren : Int) = v.load k - old.pendingChildren ∨
            (tracker.pendingChildren = old.pendingChildren ∧ ∃ task ∈ v.live, ∃ stage positions,
              stages[task.stageIndex]? = some stage ∧
              stage.successors task.position = some positions ∧ positions ≠ [] ∧
              v'.load k + task.trackers.count k =
                v.load k + positions.length * task.trackers.count k)))) := by
  cases effect with
  | silent | start | unpin | release => exact .inr ⟨tracker, found, .inr ⟨rfl, .inl rfl⟩⟩
  | raise completes raised =>
    exact .inr ⟨tracker, found, .inl ⟨rfl, View.load_raise _ completes.leaves rfl rfl, rfl⟩⟩
  | drop completes ownPin dropped =>
    rw [View.load_leave _ completes.leaves rfl rfl]
    exact .inr ⟨tracker, found, .inr ⟨rfl, .inl rfl⟩⟩
  | advance completes goes nonempty fresh =>
    refine .inr ⟨tracker, found, .inr ⟨rfl, .inr ⟨rfl, _, completes.mem, _, _, completes.found,
      goes, nonempty, View.load_spawn _ completes.leaves fresh rfl rfl⟩⟩⟩
  | defer completes request goes nonempty fresh =>
    rename_i task stage budget live held positions children
    have moved := View.load_spawn (k := k)
      (v.defer ⟨task.taskId, some request, positions.length, stage.stageId, budget⟩ children
        live held) completes.leaves fresh rfl rfl
    rw [List.count_append, Nat.mul_add] at moved
    rcases getElem?_snoc_cases found with old | ⟨rfl, rfl⟩
    · have notNew : [v.trackers.length].count k = 0 := by
        apply List.count_eq_zero_of_not_mem
        intro member
        have inRange := (List.getElem?_eq_some_iff.mp old).1
        exact absurd (List.mem_singleton.mp member) (Nat.ne_of_lt inRange)
      rw [notNew, Nat.mul_zero, Nat.add_zero] at moved
      exact .inr ⟨tracker, old, .inr ⟨rfl, .inr ⟨rfl, task, completes.mem, stage, positions,
        completes.found, goes, nonempty, moved⟩⟩⟩
    · left
      have notCarried : task.trackers.count v.trackers.length = 0 :=
        List.count_eq_zero_of_not_mem fun carried =>
          Nat.lt_irrefl _ (sound.trackers_lt task completes.mem _ carried)
      rw [List.count_singleton_self, notCarried, View.load_unknown sound (Nat.le_refl _)] at moved
      dsimp only
      omega
  | emit task leaves final =>
    rw [View.load_leave _ leaves rfl rfl]
    exact .inr ⟨tracker, found, .inr ⟨rfl, .inl rfl⟩⟩
  | childFinished j signalled told foundSignalled =>
    rename_i finishing
    obtain ⟨before, atIndex, pending⟩ := pending_childFinished foundSignalled found
    have moved := View.load_childFinished (k := k) (v.signal j signalled finishing) told rfl rfl
    refine .inr ⟨before, atIndex, .inr ⟨rfl, .inl ?_⟩⟩
    split at moved
    · rename_i same
      rw [if_pos same] at pending
      omega
    · rename_i different
      rw [if_neg different] at pending
      omega

theorem Effect.pendingLeLoad (effect : Effect stages kv v kv' v') (sound : v.Sound)
    (inv : v.PendingLeLoad) : v'.PendingLeLoad := by
  intro calm k tracker found
  obtain new | ⟨old, wasThere, ⟨failing, -⟩ | ⟨same, kept | ⟨pending, task, -, -, positions, -, -,
    nonempty, moved⟩⟩⟩ := effect.load_cases sound found
  · omega
  · rw [failing] at calm
    cases calm
  · have bound := inv (same ▸ calm) k old wasThere
    omega
  · have bound := inv (same ▸ calm) k old wasThere
    have wide : task.trackers.count k ≤ positions.length * task.trackers.count k :=
      Nat.le_mul_of_pos_left _ (List.length_pos_iff.mpr nonempty)
    omega

/-- As long as no tracked task has more than one successor, every signal is waited for. -/
theorem Effect.loadLePending (effect : Effect stages kv v kv' v') (sound : v.Sound)
    (narrow : v.Narrow stages) (inv : v.LoadLePending) : v'.LoadLePending := by
  intro k tracker found
  obtain new | ⟨old, wasThere, ⟨-, less, pending⟩ | ⟨-, kept | ⟨pending, task, member, stage,
    positions, isStage, goes, -, moved⟩⟩⟩ := effect.load_cases sound found
  · omega
  · have bound := inv k old wasThere
    omega
  · have bound := inv k old wasThere
    omega
  · have bound := inv k old wasThere
    have single : positions.length * task.trackers.count k ≤ task.trackers.count k := by
      by_cases untracked : task.trackers = []
      · simp [untracked]
      · have atMostOne := narrow task member untracked stage isStage positions goes
        calc positions.length * task.trackers.count k
            ≤ 1 * task.trackers.count k := Nat.mul_le_mul_right _ atMostOne
          _ = task.trackers.count k := Nat.one_mul _
    omega

end Effect

end Kalypso.Query
