import Mathlib.Data.List.Chain
import Mathlib.Data.List.Range

/-! A cursor that is moved ahead of a walk. Each step of the walk has a stop, and the cursor
hands out the indexes from where it is up to that stop; it never moves back. The stop of a
window is computed in a register, so it can wrap around.
-/

namespace LfuScan.Foundations.Window

variable {α : Type}

/-- The indexes handed out at each step, the cursor being at `next`. -/
def run (stop : α → Nat) : Nat → List α → List (α × List Nat)
  | _, [] => []
  | next, a :: walk =>
      (a, List.range' next (stop a - next)) :: run stop (max next (stop a)) walk

theorem mem_range_lt_stop {next stop i : Nat} (member : i ∈ List.range' next (stop - next))
    : next ≤ i ∧ i < stop := by
  rw [List.mem_range'_1] at member
  omega

/-- Nothing is handed out beyond the stop of its step. -/
theorem run_lt_stop {stop : α → Nat} {next : Nat} {walk : List α} {step : α × List Nat}
    (member : step ∈ run stop next walk) {i : Nat} (out : i ∈ step.2)
    : i < stop step.1 := by
  induction walk generalizing next with
  | nil => cases member
  | cons a walk ih =>
      obtain rfl | later := List.mem_cons.mp member
      · exact (mem_range_lt_stop out).2
      · exact ih later

/-- Nothing is handed out behind the cursor. -/
theorem run_ge_next {stop : α → Nat} {next : Nat} {walk : List α} {i : Nat}
    (out : i ∈ (run stop next walk).flatMap Prod.snd)
    : next ≤ i := by
  induction walk generalizing next with
  | nil => cases out
  | cons a walk ih =>
      rw [run, List.flatMap_cons, List.mem_append] at out
      obtain now | later := out
      · exact (mem_range_lt_stop now).1
      · exact Nat.le_trans (Nat.le_max_left ..) (ih later)

/-- What is handed out strictly increases over the whole walk. -/
theorem run_pairwise (stop : α → Nat) (next : Nat) (walk : List α)
    : ((run stop next walk).flatMap Prod.snd).Pairwise (· < ·) := by
  induction walk generalizing next with
  | nil => exact .nil
  | cons a walk ih =>
      rw [run, List.flatMap_cons, List.pairwise_append]
      refine ⟨List.pairwise_lt_range', ih _, fun i now j later => ?_⟩
      have before := (mem_range_lt_stop now).2
      have after := run_ge_next later
      omega

section Ahead

variable {cur : α → Nat} {width last size : Nat}

/-- Every index is handed out at a step that has not passed it. -/
def Ahead (cur : α → Nat) (steps : List (α × List Nat)) : Prop :=
  ∀ step ∈ steps, ∀ i ∈ step.2, cur step.1 ≤ i

theorem ahead_cons {step : α × List Nat} {steps : List (α × List Nat)}
    : Ahead cur (step :: steps) ↔ (∀ i ∈ step.2, cur step.1 ≤ i) ∧ Ahead cur steps := by
  simp [Ahead]

/-- If no step's stop is ahead of the step, the cursor must not move at all. -/
theorem ahead_iff_still {stop : α → Nat} {next : Nat} {walk : List α}
    (behind : ∀ a ∈ walk, stop a ≤ cur a)
    : Ahead cur (run stop next walk) ↔ ∀ a ∈ walk, stop a ≤ next := by
  induction walk with
  | nil => simp [run, Ahead]
  | cons a walk ih =>
      rw [List.forall_mem_cons] at behind ⊢
      rw [run, ahead_cons]
      by_cases still : stop a ≤ next
      · rw [Nat.max_eq_left still, ih behind.2, Nat.sub_eq_zero_of_le still]
        exact and_congr_left' (iff_of_true (fun i member => by cases member) still)
      · have first : next ∈ List.range' next (stop a - next) := by
          rw [List.mem_range'_1]
          omega
        refine iff_of_false (fun both => ?_) (fun both => still both.1)
        have passed : cur a ≤ next := both.1 next first
        omega

/-- The end of a window of `width` indexes from the step's own, inside the first `last` ones
and in a register of `size` values.
-/
def windowStop (cur : α → Nat) (width last size : Nat) (a : α) : Nat :=
  min ((cur a + width) % size) last

theorem windowStop_of_lt {a : α} (last : Nat) (fits : cur a + width < size)
    : windowStop cur width last size a = min (cur a + width) last := by
  rw [windowStop, Nat.mod_eq_of_lt fits]

theorem windowStop_of_wrap {a : α} (inside : cur a ≤ last) (here : cur a < size)
    (narrow : width < size) (wraps : size ≤ cur a + width)
    : windowStop cur width last size a = cur a + width - size := by
  rw [windowStop, Nat.mod_eq_sub_mod wraps, Nat.mod_eq_of_lt (by omega)]
  omega

/-- No step jumps over the window of the one before, those aside whose own window wraps. -/
def Near (cur : α → Nat) (width size : Nat) (walk : List α) : Prop :=
  walk.IsChain fun a b => cur b + width < size → cur b ≤ cur a + width

/-- The walks a cursor stays ahead of. If the first window wraps, every window does, and none
may reach past the start.
-/
structure NoLeap (cur : α → Nat) (width size : Nat) (walk : List α) : Prop where
  near : Near cur width size walk
  wrapped :
    ∀ start ∈ walk.head?, size ≤ cur start + width →
      ∀ a ∈ walk, cur a + width ≤ cur start + size

theorem near_of_wraps {before : α} {walk : List α}
    (wraps : ∀ b ∈ walk, size ≤ cur b + width)
    : Near cur width size (before :: walk) := by
  induction walk generalizing before with
  | nil => exact .singleton _
  | cons a walk ih =>
      rw [List.forall_mem_cons] at wraps
      exact List.isChain_cons_cons.mpr
        ⟨fun fits => absurd wraps.1 (Nat.not_le.mpr fits), ih wraps.2⟩

/-- In a walk that ascends, windows wrap from the first wrapped one on. -/
theorem wraps_from {a : α} {walk : List α} (ascending : (a :: walk).Pairwise (cur · ≤ cur ·))
    (wraps : size ≤ cur a + width)
    : ∀ b ∈ a :: walk, size ≤ cur b + width := by
  intro b member
  obtain rfl | rest := List.mem_cons.mp member
  · exact wraps
  · have := List.rel_of_pairwise_cons ascending rest
    omega

section Ascending

variable (narrow : width < size)

include narrow

/-- A cursor that stands where the step `before` has left it hands out indexes ahead of the
walk exactly if there is no such jump. A wrapped window ends below the cursor, so it hands out
nothing.
-/
theorem ahead_iff_near {before : α} {next : Nat} {walk : List α}
    (ascending : (before :: walk).Pairwise (cur · ≤ cur ·))
    (inside : ∀ a ∈ walk, cur a ≤ last ∧ cur a < size)
    (left : next = cur before + width ∨ last ≤ next ∧ last ≤ cur before + width)
    : Ahead cur (run (windowStop cur width last size) next walk)
        ↔ Near cur width size (before :: walk) := by
  induction walk generalizing before next with
  | nil => simp [run, Ahead, Near]
  | cons a walk ih =>
      obtain ⟨later, ascending⟩ := List.pairwise_cons.mp ascending
      have here := inside a List.mem_cons_self
      have ahead := later a List.mem_cons_self
      by_cases fits : cur a + width < size
      · have stop := windowStop_of_lt last fits
        rw [run, ahead_cons, Near, List.isChain_cons_cons, ← Near]
        by_cases near : cur a ≤ cur before + width
        · have now : ∀ i ∈ List.range' next (windowStop cur width last size a - next),
              cur a ≤ i := by
            intro i member
            have range := mem_range_lt_stop member
            omega
          rw [ih ascending (fun b member => inside b (List.mem_cons_of_mem _ member)) (by omega)]
          exact and_congr_left' (iff_of_true now fun _ => near)
        · -- the first index handed out is the one the window before ended at
          have behind : next ∈ List.range' next (windowStop cur width last size a - next) := by
            rw [List.mem_range'_1]
            omega
          refine iff_of_false (fun both => ?_) (fun both => near (both.1 fits))
          have passed : cur a ≤ next := both.1 next behind
          omega
      · -- the walk ascends, so from here on every window wraps
        have wraps := wraps_from ascending (Nat.le_of_not_lt fits)
        have stop (b : α) (member : b ∈ a :: walk) :=
          windowStop_of_wrap (inside b member).1 (inside b member).2 narrow (wraps b member)
        refine iff_of_true ?_ ?_
        · refine (ahead_iff_still fun b member => ?_).mpr fun b member => ?_
          · have := stop b member
            omega
          · have := stop b member
            have := inside b member
            omega
        · exact near_of_wraps wraps

/-- The same for a cursor that starts where the walk does. -/
theorem ahead_iff_noLeap {walk : List α} (start : α)
    (ascending : (start :: walk).Pairwise (cur · ≤ cur ·))
    (inside : ∀ a ∈ start :: walk, cur a ≤ last ∧ cur a < size)
    : Ahead cur (run (windowStop cur width last size) (cur start) (start :: walk))
        ↔ NoLeap cur width size (start :: walk) := by
  have here := inside start List.mem_cons_self
  have both : NoLeap cur width size (start :: walk) ↔ Near cur width size (start :: walk)
      ∧ (size ≤ cur start + width →
          ∀ a ∈ start :: walk, cur a + width ≤ cur start + size) :=
    ⟨fun noLeap => ⟨noLeap.near, noLeap.wrapped start rfl⟩,
      fun both => ⟨both.1, fun _ first => Option.some.inj first ▸ both.2⟩⟩
  rw [both]
  by_cases fits : cur start + width < size
  · have stop := windowStop_of_lt last fits
    rw [run, ahead_cons, ahead_iff_near narrow ascending
      (fun a member => inside a (List.mem_cons_of_mem _ member)) (by omega)]
    refine (and_iff_right fun i member => (mem_range_lt_stop member).1).trans
      (and_iff_left fun wraps => ?_).symm
    omega
  · have wraps := wraps_from ascending (Nat.le_of_not_lt fits)
    have stop (a : α) (member : a ∈ start :: walk) :=
      windowStop_of_wrap (inside a member).1 (inside a member).2 narrow (wraps a member)
    have near : Near cur width size (start :: walk) :=
      near_of_wraps fun b member => wraps b (List.mem_cons_of_mem _ member)
    rw [ahead_iff_still (fun a member => by have := stop a member; omega), and_iff_right near,
      imp_iff_right (Nat.le_of_not_lt fits)]
    refine forall₂_congr fun a member => ?_
    rw [stop a member]
    have := wraps a member
    omega

end Ascending

end Ahead

end LfuScan.Foundations.Window
