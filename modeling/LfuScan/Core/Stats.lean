import Mathlib.Algebra.Group.Defs
import Mathlib.Logic.Function.Basic

/-! The counters of a scan. Merging two sets of counters is commutative and associative,
so it does not matter which worker counted what.
-/

namespace LfuScan.Core

/-- `enum lfu_class`. -/
inductive LfuClass
  | visible
  | internal
  | ostObj
  | agent
  | noLma
  | bad
deriving DecidableEq, Repr

/-- One set of counters for all backends. -/
@[ext]
structure LfuStats where
  seen : UInt64 := 0
  cls : LfuClass → UInt64 := fun _ => 0
  emitted : UInt64 := 0
  filtered : UInt64 := 0
  filtered1 : UInt64 := 0
  unknown : UInt64 := 0
  freeIno : UInt64 := 0
  deleted : UInt64 := 0
  inUse : UInt64 := 0
  tier2 : UInt64 := 0
  tier2Read : UInt64 := 0
  csumBad : UInt64 := 0
  validateBad : UInt64 := 0
  notZnode : UInt64 := 0
  saFail : UInt64 := 0
  unlinked : UInt64 := 0
  noDxattr : UInt64 := 0
  maxBonus : UInt64 := 0

/-- `if (s > acc) acc = s`. -/
def larger (acc s : UInt64) : UInt64 := if s > acc then s else acc

/-- All counters are summed, `max_bonus` is merged by taking the larger. -/
def lfuStatsMerge (acc s : LfuStats) : LfuStats :=
  {
    seen := acc.seen + s.seen
    emitted := acc.emitted + s.emitted
    filtered := acc.filtered + s.filtered
    filtered1 := acc.filtered1 + s.filtered1
    unknown := acc.unknown + s.unknown
    cls := fun c => acc.cls c + s.cls c
    freeIno := acc.freeIno + s.freeIno
    deleted := acc.deleted + s.deleted
    inUse := acc.inUse + s.inUse
    tier2 := acc.tier2 + s.tier2
    tier2Read := acc.tier2Read + s.tier2Read
    csumBad := acc.csumBad + s.csumBad
    validateBad := acc.validateBad + s.validateBad
    notZnode := acc.notZnode + s.notZnode
    saFail := acc.saFail + s.saFail
    unlinked := acc.unlinked + s.unlinked
    noDxattr := acc.noDxattr + s.noDxattr
    maxBonus := larger acc.maxBonus s.maxBonus
  }

instance : Zero LfuStats := ⟨{}⟩

instance : Add LfuStats := ⟨lfuStatsMerge⟩

theorem stats_add_eq (left right : LfuStats) : left + right = lfuStatsMerge left right := rfl

theorem stats_zero_eq : (0 : LfuStats) = {} := rfl

theorem larger_toNat (a b : UInt64) : (larger a b).toNat = max a.toNat b.toNat := by
  unfold larger
  split
  · rename_i more
    exact (Nat.max_eq_right (Nat.le_of_lt (UInt64.lt_iff_toNat_lt.mp more))).symm
  · rename_i less
    exact (Nat.max_eq_left (Nat.not_lt.mp (mt UInt64.lt_iff_toNat_lt.mpr less))).symm

theorem larger_assoc (a b c : UInt64) : larger (larger a b) c = larger a (larger b c) := by
  rw [← UInt64.toNat_inj]
  simp only [larger_toNat, Nat.max_assoc]

theorem larger_comm (a b : UInt64) : larger a b = larger b a := by
  rw [← UInt64.toNat_inj]
  simp only [larger_toNat, Nat.max_comm]

@[simp]
theorem larger_zero (a : UInt64) : larger a 0 = a := by
  rw [← UInt64.toNat_inj, larger_toNat]
  exact Nat.max_zero _

@[simp]
theorem zero_larger (a : UInt64) : larger 0 a = a := by
  rw [larger_comm, larger_zero]

theorem stats_add_zero (stats : LfuStats) : stats + 0 = stats := by
  ext <;> simp [stats_add_eq, stats_zero_eq, lfuStatsMerge]

theorem stats_add_comm (left right : LfuStats) : left + right = right + left := by
  simp only [stats_add_eq, lfuStatsMerge, UInt64.add_comm, larger_comm left.maxBonus]

instance : AddCommMonoid LfuStats where
  add_assoc left middle right := by
    simp only [stats_add_eq, lfuStatsMerge, UInt64.add_assoc, larger_assoc]
  zero_add stats := by rw [stats_add_comm, stats_add_zero]
  add_zero := stats_add_zero
  add_comm := stats_add_comm
  nsmul := nsmulRec

end LfuScan.Core
