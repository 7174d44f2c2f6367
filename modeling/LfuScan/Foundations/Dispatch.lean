import Mathlib.Algebra.BigOperators.Group.Finset.Basic
import Mathlib.Algebra.BigOperators.Group.Finset.Piecewise
import Mathlib.Data.List.Nodup

/-! Work handed out as consecutive indices of one shared cursor. Whoever takes an index
owns it: no index is owned twice, and while no owner gives one up the owned indices are
exactly those below the cursor.
-/

namespace LfuScan.Foundations

variable {ι M : Type*}

/-- The indices each worker holds, after `cursor` of them were handed out. -/
structure Dispatched (cursor : Nat) (held : ι → List Nat) : Prop where
  bound : ∀ i, ∀ idx ∈ held i, idx < cursor
  nodup : ∀ i, (held i).Nodup
  apart : ∀ i j idx, idx ∈ held i → idx ∈ held j → i = j

/-- Every index handed out is still held. -/
def Covered (cursor : Nat) (held : ι → List Nat) : Prop :=
  ∀ idx < cursor, ∃ i, idx ∈ held i

theorem Dispatched.start : Dispatched 0 (fun _ : ι => []) where
  bound _ _ member := absurd member List.not_mem_nil
  nodup _ := List.nodup_nil
  apart _ _ _ member := absurd member List.not_mem_nil

section Moves

variable [DecidableEq ι] {cursor : Nat} {held : ι → List Nat}

/-- A worker that gives up part of what it holds. -/
theorem Dispatched.shrink (inv : Dispatched cursor held) (i : ι) {kept : List Nat}
    (less : kept.Sublist (held i))
    : Dispatched cursor (Function.update held i kept) := by
  have subset (j : ι) : (Function.update held i kept j).Sublist (held j) := by
    by_cases same : j = i
    · subst same
      rwa [Function.update_self]
    · rw [Function.update_of_ne same]
  exact {
    bound := fun j idx member => inv.bound j idx ((subset j).subset member)
    nodup := fun j => (inv.nodup j).sublist (subset j)
    apart := fun j k idx left right =>
      inv.apart j k idx ((subset j).subset left) ((subset k).subset right)
  }

theorem mem_update_take {i j : ι} {idx : Nat}
    : idx ∈ Function.update held i (held i ++ [cursor]) j
      ↔ idx ∈ held j ∨ (j = i ∧ idx = cursor) := by
  by_cases same : j = i
  · subst same
    simp
  · simp [same]

/-- A worker takes the index at the cursor. -/
theorem Dispatched.take (inv : Dispatched cursor held) (i : ι)
    : Dispatched (cursor + 1) (Function.update held i (held i ++ [cursor])) where
  bound j idx member := by
    rcases mem_update_take.mp member with old | ⟨_, new⟩
    · exact Nat.lt_succ_of_lt (inv.bound j idx old)
    · omega
  nodup j := by
    by_cases same : j = i
    · subst same
      have fresh : cursor ∉ held j := fun member => Nat.lt_irrefl _ (inv.bound j _ member)
      rw [Function.update_self, ← List.concat_eq_append]
      exact (inv.nodup j).concat fresh
    · rw [Function.update_of_ne same]
      exact inv.nodup j
  apart j k idx left right := by
    rcases mem_update_take.mp left with old | ⟨taker, new⟩
    · rcases mem_update_take.mp right with held_k | ⟨_, new⟩
      · exact inv.apart j k idx old held_k
      · exact absurd (inv.bound j idx old) (by omega)
    · rcases mem_update_take.mp right with held_k | ⟨taker_k, _⟩
      · exact absurd (inv.bound k idx held_k) (by omega)
      · rw [taker, taker_k]

theorem Covered.take (covered : Covered cursor held) (i : ι)
    : Covered (cursor + 1) (Function.update held i (held i ++ [cursor])) := by
  intro idx below
  by_cases last : idx = cursor
  · exact ⟨i, mem_update_take.mpr (.inr ⟨rfl, last⟩)⟩
  · obtain ⟨j, member⟩ := covered idx (by omega)
    exact ⟨j, mem_update_take.mpr (.inl member)⟩

end Moves

/-- Summing over what each worker holds is summing over everything handed out. -/
theorem Dispatched.sum_held [AddCommMonoid M] {cursor : Nat} {held : ι → List Nat}
    (inv : Dispatched cursor held) (covered : Covered cursor held) (workers : Finset ι)
    (only : ∀ i, held i ≠ [] → i ∈ workers) (value : Nat → M)
    : ∑ i ∈ workers, ((held i).map value).sum = ∑ idx ∈ Finset.range cursor, value idx := by
  classical
  have handedOut : Finset.range cursor = workers.biUnion (fun i => (held i).toFinset) := by
    ext idx
    simp only [Finset.mem_range, Finset.mem_biUnion, List.mem_toFinset]
    constructor
    · intro below
      obtain ⟨i, member⟩ := covered idx below
      exact ⟨i, only i (List.ne_nil_of_mem member), member⟩
    · rintro ⟨i, _, member⟩
      exact inv.bound i idx member
  rw [handedOut, Finset.sum_biUnion]
  · exact Finset.sum_congr rfl fun i _ => (List.sum_toFinset value (inv.nodup i)).symm
  · intro i _ j _ different
    rw [Function.onFun, Finset.disjoint_left]
    intro idx left right
    exact different
      (inv.apart i j idx (List.mem_toFinset.mp left) (List.mem_toFinset.mp right))

/-- A sum over all workers, split into the one that moves and the others. -/
theorem sum_update_others {α : Type*} [Fintype ι] [DecidableEq ι] [AddCommMonoid M]
    (value : α → M) (workers : ι → α) (i : ι) (next : α)
    : ∑ j, value (Function.update workers i next j)
      = value next + ∑ j ∈ Finset.univ.erase i, value (workers j) := by
  rw [← Finset.add_sum_erase _ _ (Finset.mem_univ i), Function.update_self]
  congr 1
  refine Finset.sum_congr rfl fun j member => ?_
  rw [Function.update_of_ne (Finset.ne_of_mem_erase member)]

/-- A sum over workers, one of which moves: what it had before goes and what it has now
comes.
-/
theorem sum_update_add {α : Type*} [DecidableEq ι] [AddCommMonoid M] (value : α → M)
    (workers : ι → α) {among : Finset ι} {i : ι} (member : i ∈ among) (next : α)
    : ∑ j ∈ among, value (Function.update workers i next j) + value (workers i)
      = ∑ j ∈ among, value (workers j) + value next := by
  have moved (j : ι)
      : value (Function.update workers i next j)
        = Function.update (fun j => value (workers j)) i (value next) j :=
    Function.apply_update (fun _ => value) workers i next j
  simp only [moved]
  rw [Finset.sum_update_of_mem member, ← Finset.sum_sdiff (Finset.singleton_subset_iff.mpr member),
    Finset.sum_singleton, add_assoc, add_comm]

/-- Items grouped by an index below `count` are summed up by summing up the groups. -/
theorem sum_groups {α : Type*} [AddCommMonoid M] (group : α → Nat) (value : α → M)
    {count : Nat} {items : List α} (covered : ∀ item ∈ items, group item < count)
    : ∑ idx ∈ Finset.range count, ((items.filter (group · = idx)).map value).sum
      = (items.map value).sum := by
  induction items with
  | nil => simp
  | cons item items ih =>
      have split (idx : Nat)
          : (((item :: items).filter (group · = idx)).map value).sum
            = (if group item = idx then value item else 0)
              + ((items.filter (group · = idx)).map value).sum := by
        by_cases here : group item = idx <;> simp [here]
      have below : group item ∈ Finset.range count :=
        Finset.mem_range.mpr (covered item List.mem_cons_self)
      simp only [split, Finset.sum_add_distrib, Finset.sum_ite_eq, if_pos below,
        List.map_cons, List.sum_cons]
      rw [ih fun other member => covered other (List.mem_cons_of_mem _ member)]

end LfuScan.Foundations
