import LfuScan.Filter.Eval
import Mathlib.Algebra.Group.Nat.Defs

/-! What the size predicates compare, in numbers without a bound, and where the comparison in
64 bits is the same one: as long as neither the bytes of a block count nor the end of an
equality's margin wraps into the wrong side.
-/

namespace LfuScan.Filter

open LfuScan.Lustre

/-- The comparisons a size predicate is compiled to. -/
inductive SizeOp
  | greater
  | less
  | equal
deriving DecidableEq, Repr

namespace SizeOp

def op : SizeOp → LfuOp
  | greater => .gt
  | less => .lt
  | equal => .eq

/-- The comparison of integers. An equality has a margin below it, unless it is exact. -/
def Holds (cmp : SizeOp) (value val margin : Int) : Prop :=
  match cmp with
  | greater => val < value
  | less => value < val
  | equal => if margin = 0 then value = val else val - margin < value ∧ value ≤ val

instance (cmp : SizeOp) (value val margin : Int) : Decidable (cmp.Holds value val margin) :=
  match cmp with
  | greater => inferInstanceAs (Decidable (val < value))
  | less => inferInstanceAs (Decidable (value < val))
  | equal =>
      inferInstanceAs
        (Decidable (if margin = 0 then value = val else val - margin < value ∧ value ≤ val))

/-- Where the 64-bit comparison gives the same answer. A value that has wrapped has to be on
the right side all the same; one that has not must not pass `2^64` with the margin.
-/
def Kept (cmp : SizeOp) (value val margin : Nat) : Prop :=
  match cmp with
  | greater => value < 2 ^ 64 ∨ val < value % 2 ^ 64
  | less => value < 2 ^ 64 ∨ val ≤ value % 2 ^ 64
  | equal =>
      if value < 2 ^ 64 then
        margin = 0 ∨ val < value ∨ value + margin < 2 ^ 64
      else if margin = 0 then
        value % 2 ^ 64 ≠ val
      else
        val < value % 2 ^ 64 ∨ value % 2 ^ 64 + margin ≤ val ∨ 2 ^ 64 ≤ value % 2 ^ 64 + margin

end SizeOp

/-- The wrapped sum of a value and a margin passes a number that the value does not pass just
when the sum itself does, without wrapping.
-/
theorem lt_wrapped_sum_iff {value margin val : Nat} (below : value ≤ val) (small : val < 2 ^ 64)
    (narrow : margin < 2 ^ 64)
    : val < (value + margin) % 2 ^ 64 ↔ val < value + margin ∧ value + margin < 2 ^ 64 := by
  by_cases fits : value + margin < 2 ^ 64
  · rw [Nat.mod_eq_of_lt fits]
    exact ⟨fun above => ⟨above, fits⟩, fun both => both.1⟩
  · have wrapped : (value + margin) % 2 ^ 64 = value + margin - 2 ^ 64 := by omega
    omega

theorem lfuCmp_greater {p : LfuPred} (op : p.op = SizeOp.greater.op.code) (value : UInt64)
    : lfuCmp p value = true ↔ p.val.toNat < value.toNat := by
  unfold lfuCmp
  rw [op, LfuOp.ofCode?_code]
  simp only [SizeOp.op, decide_eq_true_eq, GT.gt, UInt64.lt_iff_toNat_lt]

theorem lfuCmp_less {p : LfuPred} (op : p.op = SizeOp.less.op.code) (value : UInt64)
    : lfuCmp p value = true ↔ value.toNat < p.val.toNat := by
  unfold lfuCmp
  rw [op, LfuOp.ofCode?_code]
  simp only [SizeOp.op, decide_eq_true_eq, UInt64.lt_iff_toNat_lt]

theorem lfuCmp_equal {p : LfuPred} (op : p.op = SizeOp.equal.op.code) (value : UInt64)
    : lfuCmp p value = true
      ↔ if p.val2.toNat = 0 then value.toNat = p.val.toNat
        else value.toNat ≤ p.val.toNat
          ∧ p.val.toNat < value.toNat + p.val2.toNat
          ∧ value.toNat + p.val2.toNat < 2 ^ 64 := by
  unfold lfuCmp
  rw [op, LfuOp.ofCode?_code]
  have zero : p.val2 = 0 ↔ p.val2.toNat = 0 := UInt64.toNat_inj.symm
  by_cases exact_ : p.val2.toNat = 0
  · rw [if_pos exact_, zero.mpr exact_]
    simp only [SizeOp.op, bne_self_eq_false, Bool.false_eq_true, if_false, beq_iff_eq,
      UInt64.toNat_inj]
  · have margin : (p.val2 != 0) = true := bne_iff_ne.mpr fun none_ => exact_ (zero.mp none_)
    simp only [SizeOp.op, margin, exact_, if_true, if_false, Bool.and_eq_true, decide_eq_true_eq,
      GT.gt, UInt64.lt_iff_toNat_lt, UInt64.le_iff_toNat_le, UInt64.toNat_add]
    exact and_congr_right fun below =>
      lt_wrapped_sum_iff below p.val.toNat_lt p.val2.toNat_lt

/-- The comparison of the low 64 bits of a value is that of the value. -/
theorem lfuCmp_eq_holds_iff {p : LfuPred} {cmp : SizeOp} (op : p.op = cmp.op.code) (value : Nat)
    : lfuCmp p (UInt64.ofNat value) = decide (cmp.Holds value p.val.toNat p.val2.toNat)
      ↔ cmp.Kept value p.val.toNat p.val2.toNat := by
  have low : (UInt64.ofNat value).toNat = value % 2 ^ 64 := UInt64.toNat_ofNat'
  have val := p.val.toNat_lt
  have margin := p.val2.toNat_lt
  have less := Nat.mod_lt value (show 0 < 2 ^ 64 by decide)
  have same : value < 2 ^ 64 → value % 2 ^ 64 = value := Nat.mod_eq_of_lt
  rw [Bool.eq_iff_iff, decide_eq_true_iff]
  cases cmp with
  | greater =>
      rw [lfuCmp_greater op, low]
      simp only [SizeOp.Holds, SizeOp.Kept]
      omega
  | less =>
      rw [lfuCmp_less op, low]
      simp only [SizeOp.Holds, SizeOp.Kept]
      omega
  | equal =>
      rw [lfuCmp_equal op, low]
      simp only [SizeOp.Holds, SizeOp.Kept]
      by_cases exact_ : p.val2.toNat = 0
      · simp only [exact_, Int.natCast_eq_zero, if_true]
        split <;> omega
      · simp only [exact_, Int.natCast_eq_zero, if_false, false_or]
        split <;> omega

-----------------------------------------------------------------------------------------
-- What is compared
-----------------------------------------------------------------------------------------

/-- Who holds the size of a file: its inode, the size kept on the MDT for a file whose data is
on the OSTs, or nobody there.
-/
inductive SizeHolder
  | inode
  | som
  | nobody

def sizeHolder (rec : LfuRec) (t1 : LfuTier1) : SizeHolder :=
  let regular := rec.mode &&& lfuSIfmt == lfuSIfreg
  let released := t1.haveLov && t1.pattern &&& lovPatternFReleased != 0
  let striped := t1.haveLov && t1.stripeCount > 0
  if regular && !released && striped then
    if t1.haveSom && t1.somValid &&& (somFlStrict ||| somFlLazy) != 0 then .som else .nobody
  else
    .inode

/-- The bytes of a size or of a number of blocks. -/
def exactBytes (wantBlocks : Bool) (size blocks : UInt64) : Nat :=
  if wantBlocks then blocks.toNat * 512 else size.toNat

/-- The bytes a size predicate is about. -/
def exactSize? (rec : LfuRec) (t1 : LfuTier1) (wantBlocks : Bool) : Option Nat :=
  match sizeHolder rec t1 with
  | .inode => some (exactBytes wantBlocks rec.size rec.blocks)
  | .som => some (exactBytes wantBlocks t1.somSize t1.somBlocks)
  | .nobody => none

theorem ofNat_exactBytes (wantBlocks : Bool) (size blocks : UInt64)
    : UInt64.ofNat (exactBytes wantBlocks size blocks)
      = if wantBlocks then blocks * 512 else size := by
  cases wantBlocks with
  | false => exact UInt64.ofNat_toNat
  | true =>
      show UInt64.ofNat (blocks.toNat * 512) = blocks * 512
      rw [UInt64.ofNat_mul, UInt64.ofNat_toNat]
      rfl

/-- The value that is chosen is the low 64 bits of the bytes. -/
theorem lfuResolveSize_low (rec : LfuRec) (t1 : LfuTier1) (wantBlocks : Bool)
    : lfuResolveSize rec t1 wantBlocks = (exactSize? rec t1 wantBlocks).map UInt64.ofNat := by
  unfold lfuResolveSize exactSize? sizeHolder
  rw [← ofNat_exactBytes, ← ofNat_exactBytes, bne]
  dsimp only
  generalize (rec.mode &&& lfuSIfmt == lfuSIfreg) = regular
  generalize (t1.haveLov && t1.pattern &&& lovPatternFReleased != 0) = released
  generalize (t1.haveLov && decide (t1.stripeCount > 0)) = striped
  generalize (t1.haveSom && t1.somValid &&& (somFlStrict ||| somFlLazy) != 0) = kept
  cases regular <;> cases released <;> cases striped <;> cases kept <;> rfl

/-- The answer of a size predicate, in numbers without a bound. -/
def exactHit (cmp : SizeOp) (p : LfuPred) : Option Nat → Tier1Hit
  | none => .undecided
  | some value => .hit (decide (cmp.Holds value p.val.toNat p.val2.toNat))

/-- The answer of a size predicate for the value that was chosen. -/
def sizedHit (p : LfuPred) : Option UInt64 → Tier1Hit
  | none => .undecided
  | some value => .hit (lfuCmp p value)

theorem tier1Hit_size (env : Platform) {p : LfuPred} (field : p.field = LfuField.size.code)
    (rec : LfuRec) (t1 : LfuTier1) (eas : Option LfuEas)
    : tier1Hit env p rec t1 eas = sizedHit p (lfuResolveSize rec t1 false) := by
  simp only [tier1Hit, field, LfuField.ofCode?_code]
  cases lfuResolveSize rec t1 false <;> rfl

theorem tier1Hit_blocks (env : Platform) {p : LfuPred} (field : p.field = LfuField.blocks.code)
    (rec : LfuRec) (t1 : LfuTier1) (eas : Option LfuEas)
    : tier1Hit env p rec t1 eas = sizedHit p (lfuResolveSize rec t1 true) := by
  simp only [tier1Hit, field, LfuField.ofCode?_code]
  cases lfuResolveSize rec t1 true <;> rfl

theorem sizedHit_exact_iff {p : LfuPred} {cmp : SizeOp} (op : p.op = cmp.op.code) (rec : LfuRec)
    (t1 : LfuTier1) (wantBlocks : Bool)
    : sizedHit p (lfuResolveSize rec t1 wantBlocks)
        = exactHit cmp p (exactSize? rec t1 wantBlocks)
      ↔ ∀ value ∈ exactSize? rec t1 wantBlocks, cmp.Kept value p.val.toNat p.val2.toNat := by
  rw [lfuResolveSize_low]
  cases exactSize? rec t1 wantBlocks with
  | none => exact ⟨fun _ _ member => (by cases member), fun _ => rfl⟩
  | some value =>
      simp only [sizedHit, exactHit, Option.map_some, Tier1Hit.hit.injEq, lfuCmp_eq_holds_iff op,
        Option.mem_def, Option.some.injEq, forall_eq']

/-- A size predicate answers as the comparison of unbounded numbers does just where the value
it compares, and for an equality the margin above it, has not wrapped to the other side.
-/
theorem size_comparison_exact_iff (env : Platform) {p : LfuPred} (cmp : SizeOp)
    (op : p.op = cmp.op.code) (rec : LfuRec) (t1 : LfuTier1) (eas : Option LfuEas) (now : Int)
    : (p.field = LfuField.size.code →
        (tier1Hit env p rec t1 eas = exactHit cmp p (exactSize? rec t1 false)
          ↔ ∀ value ∈ exactSize? rec t1 false, cmp.Kept value p.val.toNat p.val2.toNat))
      ∧ (p.field = LfuField.blocks.code →
        (tier1Hit env p rec t1 eas = exactHit cmp p (exactSize? rec t1 true)
          ↔ ∀ value ∈ exactSize? rec t1 true, cmp.Kept value p.val.toNat p.val2.toNat))
      ∧ (p.field = LfuField.devBlocks.code →
        (tier0Hit p rec now
            = some (decide (cmp.Holds (rec.blocks.toNat * 512 : Nat) p.val.toNat p.val2.toNat))
          ↔ cmp.Kept (rec.blocks.toNat * 512) p.val.toNat p.val2.toNat)) := by
  refine ⟨fun field => ?_, fun field => ?_, fun field => ?_⟩
  · rw [tier1Hit_size env field]
    exact sizedHit_exact_iff op rec t1 false
  · rw [tier1Hit_blocks env field]
    exact sizedHit_exact_iff op rec t1 true
  · unfold tier0Hit
    rw [field, LfuField.ofCode?_code]
    have bytes : rec.blocks * 512 = UInt64.ofNat (rec.blocks.toNat * 512) :=
      (ofNat_exactBytes true 0 rec.blocks).symm
    simp only [bytes, Option.some.injEq, lfuCmp_eq_holds_iff op]

/-- `--size 1M` on a file of one byte less, whose size its inode holds. -/
theorem size_comparison_within_margin
    : tier1Hit exactNames
          { field := LfuField.size.code, op := LfuOp.eq.code, val := 0x100000, val2 := 0x100000 }
          { size := 0xfffff } {} none
        = .hit true := by
  refine ((size_comparison_exact_iff exactNames .equal rfl { size := 0xfffff } {} none
    0).1 rfl).mpr ?_
  intro value member
  cases member
  simp only [SizeOp.Kept]
  decide

/-- A number of blocks whose bytes wrap to zero is not more than zero, and the largest size is
not within a margin of itself.
-/
theorem wrapped_size_misses
    : tier0Hit { field := LfuField.devBlocks.code, op := LfuOp.gt.code }
          { blocks := 0x80000000000000 } 0
        = some false
      ∧ SizeOp.greater.Holds (0x80000000000000 * 512) 0 0
      ∧ tier1Hit exactNames
          {
            field := LfuField.size.code, op := LfuOp.eq.code
            val := 0xffffffffffffffff, val2 := 512
          }
          { size := 0xffffffffffffffff } {} none
        = .hit false
      ∧ SizeOp.equal.Holds 0xffffffffffffffff 0xffffffffffffffff 512 := by
  decide +kernel

end LfuScan.Filter
