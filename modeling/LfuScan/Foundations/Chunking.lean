import Mathlib.Data.List.Range

/-! A range cut into chunks of one width, the last of them perhaps shorter. -/

namespace LfuScan.Foundations

variable {α : Type*}

/-- Where a chunk stops that begins at `idx * width`. -/
def chunkStop (width count idx : Nat) : Nat := min ((idx + 1) * width) count

/-- The chunks in order are the range in order. -/
theorem flatMap_chunks (width count : Nat) (f : Nat → List α) (chunks : Nat)
    : (List.range chunks).flatMap (fun idx =>
          (List.range' (idx * width + 1) (chunkStop width count idx - idx * width)).flatMap f)
      = (List.range' 1 (min (chunks * width) count)).flatMap f := by
  induction chunks with
  | zero => simp
  | succ chunks ih =>
      have more : min ((chunks + 1) * width) count
          = min (chunks * width) count + (chunkStop width count chunks - chunks * width) := by
        rw [chunkStop, Nat.add_mul]
        omega
      rw [List.range_succ, List.flatMap_append, ih, List.flatMap_singleton, more,
        ← List.range'_append_1, List.flatMap_append]
      congr 1
      by_cases within : chunks * width ≤ count
      · rw [Nat.min_eq_left within, Nat.add_comm 1]
      · have none_ : chunkStop width count chunks - chunks * width = 0 := by
          rw [chunkStop]
          omega
        rw [none_, List.range'_zero, List.range'_zero]

section Sorted

variable {key : α → Nat} {entries : List α}

/-- What is below a bound, cut at a lower one. -/
theorem filter_cut (sorted : entries.Pairwise fun a b => key a < key b) {low high : Nat}
    (ordered : low ≤ high)
    : entries.filter (fun a => decide (key a < low))
        ++ entries.filter (fun a => decide (low ≤ key a ∧ key a < high))
      = entries.filter (fun a => decide (key a < high)) := by
  induction entries with
  | nil => rfl
  | cons entry rest ih =>
      obtain ⟨first, sorted⟩ := List.pairwise_cons.mp sorted
      by_cases below : key entry < low
      · have under : key entry < high := Nat.lt_of_lt_of_le below ordered
        simp only [List.filter_cons, below, under, Nat.not_le.mpr below, decide_true, if_true,
          false_and, decide_false, Bool.false_eq_true, if_false, List.cons_append, ih sorted]
      · -- nothing of the rest is below either
        have above (a : α) (member : a ∈ entry :: rest) : low ≤ key a := by
          rcases List.mem_cons.mp member with rfl | later
          · exact Nat.not_lt.mp below
          · exact (Nat.not_lt.mp below).trans (Nat.le_of_lt (first a later))
        have none_ : (entry :: rest).filter (fun a => decide (key a < low)) = [] :=
          List.filter_eq_nil_iff.mpr fun a member =>
            mt of_decide_eq_true (Nat.not_lt.mpr (above a member))
        rw [none_, List.nil_append]
        refine List.filter_congr fun a member => ?_
        simp only [above a member, true_and]

/-- A sorted list is its chunks in order. -/
theorem filter_chunks (sorted : entries.Pairwise fun a b => key a < key b) (width chunks : Nat)
    : (List.range chunks).flatMap (fun idx =>
          entries.filter fun a => decide (idx * width ≤ key a ∧ key a < (idx + 1) * width))
      = entries.filter fun a => decide (key a < chunks * width) := by
  induction chunks with
  | zero => simp
  | succ chunks ih =>
      rw [List.range_succ, List.flatMap_append, ih, List.flatMap_singleton,
        filter_cut sorted (Nat.mul_le_mul_right _ (Nat.le_succ chunks))]

end Sorted

end LfuScan.Foundations
