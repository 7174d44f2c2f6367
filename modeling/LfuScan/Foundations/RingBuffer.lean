import Mathlib.Algebra.Order.Ring.Nat
import Mathlib.Data.Nat.ModEq
import Mathlib.Data.Nat.Bitwise
import Mathlib.Logic.Function.Basic

/-! A bounded buffer addressed by two free-running 64-bit counters.
The counters stand for unbounded totals, the slot of a total is its residue, and the
buffer holds every item that has been stored and not yet consumed.
-/

namespace LfuScan.Foundations

/-- The difference of two counters is the difference of their totals, however often the
counters have wrapped, as long as the totals stay close.
-/
theorem counter_diff {stored consumed : Nat} (le : consumed ≤ stored)
    (near : stored - consumed < 2 ^ 64)
    : (UInt64.ofNat stored - UInt64.ofNat consumed).toNat = stored - consumed := by
  rw [← UInt64.ofNat_sub le, UInt64.toNat_ofNat_of_lt' near]

/-- The usual test for a power of two: clearing the lowest set bit leaves nothing. The top
bit of `n` is also set in `n - 1` unless it is the only one.
-/
theorem two_pow_of_and_pred {n : Nat} (positive : n ≠ 0) (clear : n &&& (n - 1) = 0)
    : ∃ width, n = 2 ^ width := by
  have low : 2 ^ n.log2 ≤ n := Nat.log2_self_le positive
  have high : n < 2 ^ (n.log2 + 1) := Nat.lt_log2_self
  refine ⟨n.log2, Nat.le_antisymm (Nat.not_lt.mp fun above => ?_) low⟩
  have topBit : ∀ m, 2 ^ n.log2 ≤ m → m < 2 ^ (n.log2 + 1) → m.testBit n.log2 = true := by
    intro m atLeast below
    have quotient : m / 2 ^ n.log2 = 1 := by
      rw [Nat.pow_succ] at below
      exact Nat.div_eq_of_lt_le (by omega) (by omega)
    rw [Nat.testBit_eq_decide_div_mod_eq, quotient]
    rfl
  have both : (n &&& (n - 1)).testBit n.log2 = true := by
    rw [Nat.testBit_and, topBit n low high, topBit (n - 1) (by omega) (by omega)]
    rfl
  simp [clear] at both

/-- Masking a counter with a power of two less one gives the slot of its total, across
any number of counter overflows.
-/
theorem counter_mask {slots : UInt64} {width : Nat} (total : Nat)
    (power : slots.toNat = 2 ^ width)
    : (UInt64.ofNat total &&& (slots - 1)).toNat = total % slots.toNat := by
  have one : 1 ≤ slots.toNat := by rw [power]; exact Nat.one_le_two_pow
  have bound : width ≤ 64 := by
    have small := slots.toNat_lt
    rw [power] at small
    exact (Nat.pow_lt_pow_iff_right (by decide)).mp small |>.le
  have less : (slots - 1).toNat = 2 ^ width - 1 := by
    rw [UInt64.toNat_sub_of_le _ _ (by simpa [UInt64.le_iff_toNat_le] using one), power]
    rfl
  rw [UInt64.toNat_and, less, Nat.and_two_pow_sub_one_eq_mod, UInt64.toNat_ofNat', power]
  exact Nat.mod_mod_of_dvd _ (Nat.pow_dvd_pow 2 bound)

variable {α : Type*}

/-- Every stored item from `consumed` on sits in the slot of its position. -/
def Holds (buffer : Nat → α) (slots : Nat) (stored : List α) (consumed : Nat) : Prop :=
  ∀ index, consumed ≤ index → ∀ item, stored[index]? = some item →
    buffer (index % slots) = item

/-- Two positions less than one revolution apart have different slots. -/
theorem slot_ne {slots early late : Nat} (before : early < late)
    (near : late < early + slots)
    : early % slots ≠ late % slots := by
  intro same
  have apart : slots ∣ late - early := (Nat.modEq_iff_dvd' before.le).mp same
  have := Nat.le_of_dvd (by omega) apart
  omega

/-- Writing the next slot keeps every held item while a slot is free. -/
theorem Holds.fill {buffer : Nat → α} {slots consumed : Nat} {stored : List α}
    (held : Holds buffer slots stored consumed) (free : stored.length < consumed + slots)
    (item : α)
    : Holds (Function.update buffer (stored.length % slots) item) slots stored consumed := by
  intro index after found at_
  have below : index < stored.length := (List.getElem?_eq_some_iff.mp at_).1
  rw [Function.update_of_ne (slot_ne below (by omega))]
  exact held index after found at_

/-- An item already written to the next slot may be counted as stored. -/
theorem Holds.publish {buffer : Nat → α} {slots consumed : Nat} {stored : List α} {item : α}
    (held : Holds buffer slots stored consumed)
    (written : buffer (stored.length % slots) = item)
    : Holds buffer slots (stored ++ [item]) consumed := by
  intro index after found at_
  rcases Nat.lt_or_ge index stored.length with below | above
  · exact held index after found (by rwa [List.getElem?_append_left below] at at_)
  · rw [List.getElem?_append_right above] at at_
    obtain ⟨bound, same⟩ := List.getElem?_eq_some_iff.mp at_
    have last : index = stored.length := by simp at bound; omega
    subst last
    simpa [written] using same

/-- Consuming items only shrinks the window. -/
theorem Holds.consume {buffer : Nat → α} {slots consumed later : Nat} {stored : List α}
    (held : Holds buffer slots stored consumed) (le : consumed ≤ later)
    : Holds buffer slots stored later :=
  fun index after => held index (le.trans after)

/-- Copying one more item in slot order extends the items copied so far: as long as the
copy does not cross the end of the buffer, offset and position agree.
-/
theorem Holds.copy {buffer : Nat → α} {slots consumed copied : Nat} {stored : List α}
    (held : Holds buffer slots stored consumed)
    (inside : consumed % slots + copied < slots)
    (present : consumed + copied < stored.length)
    : (stored.drop consumed).take copied ++ [buffer (consumed % slots + copied)]
      = (stored.drop consumed).take (copied + 1) := by
  have slot : (consumed + copied) % slots = consumed % slots + copied := by
    rw [Nat.add_mod, Nat.mod_eq_of_lt (show copied < slots by omega), Nat.mod_eq_of_lt inside]
  have item := held (consumed + copied) (by omega) _ (List.getElem?_eq_getElem present)
  rw [slot] at item
  have short : copied < (stored.drop consumed).length := by
    rw [List.length_drop]
    omega
  rw [List.take_succ_eq_append_getElem short, List.getElem_drop, item]

end LfuScan.Foundations
