import Mathlib.Algebra.Group.Nat.Defs
import Mathlib.Data.List.Basic
import Mathlib.Data.List.TakeWhile

/-! Memory accesses that fault. A buffer or an array is reached through operations that give
`none` outside its bounds, so a computation written with them answers `some` exactly when
every access it makes is inside.
-/

namespace LfuScan.Foundations

variable {α : Type} {n : Nat}

/-- One element of a buffer. -/
def load (b : List α) (off : Nat) : Option α := b[off]?

/-- The source of a copy. -/
def loadRange (b : List α) (off count : Nat) : Option (List α) :=
  if off + count ≤ b.length then some ((b.drop off).take count) else none

/-- One element of an array. -/
def store (a : Vector α n) (i : Nat) (value : α) : Option (Vector α n) :=
  if h : i < n then some (a.set i value h) else none

/-- A copy to the start of an array. -/
def storeRange (a : Vector α n) (source : List α) : Option (Vector α n) :=
  if source.length ≤ n then
    some (Vector.ofFn (fun i => source.getD i (a.get i)))
  else
    none

/-- A copy into a buffer. -/
def storeList (b : List α) (off : Nat) (source : List α) : Option (List α) :=
  if off + source.length ≤ b.length then
    some (b.take off ++ source ++ b.drop (off + source.length))
  else
    none

/-- A string read up to its terminator, which must be inside the array. -/
def loadString (a : Vector UInt8 n) : Option (List UInt8) :=
  if a.toList.contains 0 then some (a.toList.takeWhile (· != 0)) else none

/-- A 32-bit sum that must not wrap. -/
def addNoWrap (left right : UInt32) : Option UInt32 :=
  if left.toNat + right.toNat < 2 ^ 32 then some (left + right) else none

/-- The part of a buffer a pointer and a length name. -/
abbrev window (b : List α) (base len : Nat) : List α := (b.drop base).take len

theorem load_inside {b : List α} {off : Nat} (inside : off < b.length)
    : load b off = some (b.get ⟨off, inside⟩) :=
  List.getElem?_eq_getElem inside

theorem loadRange_inside {b : List α} {off count : Nat} (inside : off + count ≤ b.length)
    : loadRange b off count = some ((b.drop off).take count) :=
  if_pos inside

/-- A copy over the end of what stands in front of `rest`. -/
theorem storeList_before {front rest source : List α} (fits : source.length ≤ front.length)
    : storeList (front ++ rest) (front.length - source.length) source
      = some (front.take (front.length - source.length) ++ source ++ rest) := by
  have ends : front.length - source.length + source.length = front.length := by omega
  rw [storeList, ends, if_pos (by rw [List.length_append]; omega), List.drop_left,
    List.take_append_of_le_length (by omega)]

/-- A copy over the start of a buffer. -/
theorem storeList_head {old source : List α} (same : source.length = old.length)
    (back : List α)
    : storeList (old ++ back) 0 source = some (source ++ back) := by
  rw [storeList, if_pos (by rw [List.length_append]; omega), List.take_zero, List.nil_append,
    Nat.zero_add, List.drop_left' same.symm]

/-- A copy behind what stands in front. -/
theorem storeList_skip {front : List α} {n : Nat} (size : front.length = n) (back : List α)
    (off : Nat) (source : List α)
    : storeList (front ++ back) (n + off) source
      = (storeList back off source).map (front ++ ·) := by
  subst size
  have bound : front.length + off + source.length ≤ (front ++ back).length
      ↔ off + source.length ≤ back.length := by
    rw [List.length_append]
    omega
  simp only [storeList, bound]
  split
  · rw [Nat.add_assoc, List.take_length_add_append, List.drop_length_add_append]
    simp only [Option.map_some, List.append_assoc]
  · rfl

/-- A copy over bytes in the middle of a buffer. -/
theorem storeList_over {front old source : List α} {off : Nat} (placed : front.length = off)
    (same : source.length = old.length) (back : List α)
    : storeList (front ++ (old ++ back)) off source = some (front ++ (source ++ back)) := by
  have skipped := storeList_skip placed (old ++ back) 0 source
  rw [storeList_head same] at skipped
  exact skipped

/-- Two copies one behind the other are one copy. -/
theorem storeList_append (b : List α) (off : Nat) (first second : List α)
    : (storeList b off first).bind (storeList · (off + first.length) second)
      = storeList b off (first ++ second) := by
  by_cases starts : off + first.length ≤ b.length
  · have begins : (b.take off ++ first).length = off + first.length := by
      rw [List.length_append, List.length_take]
      omega
    have behind := storeList_skip begins (b.drop (off + first.length)) 0 second
    have bound
        : 0 + second.length ≤ (b.drop (off + first.length)).length
          ↔ off + (first ++ second).length ≤ b.length := by
      rw [List.length_drop, List.length_append]
      omega
    have copied
        : storeList b off first = some (b.take off ++ first ++ b.drop (off + first.length)) :=
      if_pos starts
    rw [copied, Option.bind_some]
    refine behind.trans ?_
    simp only [storeList, bound]
    split
    · simp [Nat.add_assoc]
    · rfl
  · have never : storeList b off first = none := if_neg starts
    have neither : storeList b off (first ++ second) = none :=
      if_neg (by rw [List.length_append]; omega)
    rw [never, neither, Option.bind_none]

theorem addNoWrap_fits {left right : UInt32} (fits : left.toNat + right.toNat < 2 ^ 32)
    : addNoWrap left right = some (left + right) :=
  if_pos fits

theorem loadString_ended {a : Vector UInt8 n} (ended : 0 ∈ a.toList)
    : loadString a = some (a.toList.takeWhile (· != 0)) :=
  if_pos (List.contains_iff_mem.mpr ended)

/-- What is read leaves room for the terminator. -/
theorem loadString_length {a : Vector UInt8 n} {text : List UInt8}
    (loads : loadString a = some text)
    : text.length < n := by
  unfold loadString at loads
  split at loads
  · rename_i ended
    cases loads
    have within := (List.takeWhile_sublist (· != 0) (l := a.toList)).length_le
    rw [Vector.length_toList] at within
    refine Nat.lt_of_le_of_ne within fun whole => ?_
    have all := List.takeWhile_eq_self_iff.mp
      ((List.takeWhile_prefix _).eq_of_length (whole.trans Vector.length_toList.symm))
    exact absurd (all 0 (List.contains_iff_mem.mp ended)) (by decide)
  · cases loads

theorem length_window {b : List α} {base len : Nat} (inside : base + len ≤ b.length)
    : (window b base len).length = len := by
  simp only [window, List.length_take, List.length_drop]
  omega

theorem window_all (b : List α) : window b 0 b.length = b := by simp [window]

/-- A string written into an array, then terminated, reads back as the bytes written: what
the array held before is out of reach.
-/
theorem loadString_written (a : Vector UInt8 n) {source : List UInt8}
    (fits : source.length < n)
    : ∃ copied terminated,
        storeRange a source = some copied
        ∧ store copied source.length 0 = some terminated
        ∧ loadString terminated = some (source.takeWhile (· != 0)) := by
  refine ⟨_, _, if_pos (Nat.le_of_lt fits), dif_pos fits, ?_⟩
  generalize written : Vector.set _ source.length (0 : UInt8) fits = terminated
  -- the array is the source, the terminator, and what was there before
  have copied : terminated.toList.take source.length = source := by
    apply List.ext_getElem
    · simp only [List.length_take, Vector.length_toList]
      omega
    · intro i _ before
      rw [List.getElem_take, Vector.getElem_toList]
      subst written
      rw [Vector.getElem_set_ne _ _ (by omega)]
      simp [List.getD_eq_getElem?_getD, before]
  have inside : source.length < terminated.toList.length := by simpa using fits
  have ended : terminated.toList.get ⟨source.length, inside⟩ = 0 := by
    subst written
    simp
  have split : terminated.toList
      = source ++ (0 : UInt8) :: terminated.toList.drop (source.length + 1) := by
    conv_lhs => rw [← List.take_append_drop source.length terminated.toList, copied,
      List.drop_eq_getElem_cons inside]
    exact congrArg (fun c => source ++ c :: _) ended
  rw [loadString_ended (by rw [split]; simp), split, List.takeWhile_append]
  split
  · rename_i whole
    simp [(List.takeWhile_prefix (· != 0)).eq_of_length whole]
  · rfl

end LfuScan.Foundations
