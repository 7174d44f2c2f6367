import LfuScan.Foundations.Window
import LfuScan.Osd.RawInode
import Mathlib.Algebra.Group.Nat.Defs

/-! Readahead of the inode table. The private iterator keeps a cursor into the table of the
group it walks and submits the blocks from there up to a window ahead of the inode it is about
to read. The cursor only moves forward, but a walk over free inodes can overtake it.
-/

namespace LfuScan.Osd

open LfuScan.Foundations

/-- `ooi_ra_next` and `ooi_ra_bg`: the next block of the table to submit, and the group the
cursor is for, plus one.
-/
structure ItableCursor where
  raNext : UInt32 := 0
  raBg : UInt32 := 0
deriving DecidableEq

/-- The blocks submitted from `next` on, and where the cursor is left. The cursor stays below
`last`, so `last` rounds are enough.
-/
def breadaheadLoop (stop last : UInt32) : Nat → UInt32 → List UInt32 × UInt32
  | 0, next => ([], next)
  | rounds + 1, next =>
      if next < stop && next < last then
        let (submitted, next') := breadaheadLoop stop last rounds (next + 1)
        (next :: submitted, next')
      else
        ([], next)

/-- The block indexes submitted before inode `pos` of group `bg` is read. -/
def osdItableReadahead (sb : SuperBlock) (lfuRaBlocks bg gbase : UInt32) (it : ItableCursor)
    (pos : UInt32)
    : List UInt32 × ItableCursor :=
  let ipb := sb.sBlocksize / sb.inodeSize
  if lfuRaBlocks == 0 then
    ([], it)
  else if ipb == 0 then
    ([], it)
  else
    let cur := (pos - gbase) / ipb
    let last := sb.inodesPerGroup / ipb
    let it := if it.raBg != bg + 1 then { raNext := cur, raBg := bg + 1 } else it
    if it.raNext ≥ cur + lfuRaBlocks || it.raNext ≥ last then
      ([], it)
    else
      let (submitted, raNext) := breadaheadLoop (cur + lfuRaBlocks) last last.toNat it.raNext
      (submitted, { it with raNext })

/-- A walk over the inodes of one group: for each, the block indexes submitted. -/
def readaheadWalk (sb : SuperBlock) (lfuRaBlocks bg gbase : UInt32)
    : ItableCursor → List UInt32 → List (UInt32 × List UInt32)
  | _, [] => []
  | it, pos :: walk =>
      let (submitted, it) := osdItableReadahead sb lfuRaBlocks bg gbase it pos
      (pos, submitted) :: readaheadWalk sb lfuRaBlocks bg gbase it walk

-----------------------------------------------------------------------------------------
-- The cursor
-----------------------------------------------------------------------------------------

/-- The block of the table an inode is in. -/
def tableBlock (sb : SuperBlock) (gbase pos : UInt32) : Nat :=
  ((pos - gbase) / (sb.sBlocksize / sb.inodeSize)).toNat

/-- The number of blocks in a group's table. -/
def tableBlocks (sb : SuperBlock) : Nat :=
  (sb.inodesPerGroup / (sb.sBlocksize / sb.inodeSize)).toNat

theorem breadaheadLoop_spec (stop last : UInt32) {rounds : Nat} {next : UInt32}
    (enough : last.toNat ≤ next.toNat + rounds)
    : (breadaheadLoop stop last rounds next).1.map UInt32.toNat
          = List.range' next.toNat (min stop.toNat last.toNat - next.toNat)
      ∧ (breadaheadLoop stop last rounds next).2.toNat
          = max next.toNat (min stop.toNat last.toNat) := by
  induction rounds generalizing next with
  | zero =>
      rw [Nat.sub_eq_zero_of_le (by omega)]
      exact ⟨rfl, by simp only [breadaheadLoop]; omega⟩
  | succ rounds ih =>
      simp only [breadaheadLoop, Bool.and_eq_true, decide_eq_true_eq, UInt32.lt_iff_toNat_lt]
      split
      · rename_i below
        have moved : (next + 1).toNat = next.toNat + 1 := by
          have := last.toNat_lt
          rw [UInt32.toNat_add]
          exact Nat.mod_eq_of_lt (by simp; omega)
        obtain ⟨submitted, left⟩ :=
          ih (show last.toNat ≤ (next + 1).toNat + rounds by omega)
        have more : min stop.toNat last.toNat - next.toNat
            = min stop.toNat last.toNat - (next.toNat + 1) + 1 := by omega
        rw [List.map_cons, submitted, left, moved, more, List.range'_succ]
        exact ⟨rfl, by omega⟩
      · rw [Nat.sub_eq_zero_of_le (by omega)]
        exact ⟨rfl, by simp only; omega⟩

section Walk

variable (sb : SuperBlock) {lfuRaBlocks bg gbase : UInt32}

/-- Up to where the table is to be submitted when inode `pos` is read. -/
abbrev readaheadStop (lfuRaBlocks gbase : UInt32) : UInt32 → Nat :=
  Window.windowStop (tableBlock sb gbase) lfuRaBlocks.toNat (tableBlocks sb) (2 ^ 32)

/-- The steps of a walk, with the indexes as numbers. -/
def stepNats (step : UInt32 × List UInt32) : UInt32 × List Nat :=
  (step.1, step.2.map UInt32.toNat)

section Enabled

variable (enabled : lfuRaBlocks ≠ 0) (packed : sb.sBlocksize / sb.inodeSize ≠ 0)

include enabled packed

/-- In another group than its own the cursor starts at the inode's block. -/
theorem osdItableReadahead_restart {it : ItableCursor} (entered : it.raBg ≠ bg + 1) (pos : UInt32)
    : osdItableReadahead sb lfuRaBlocks bg gbase it pos
        = osdItableReadahead sb lfuRaBlocks bg gbase
            { raNext := (pos - gbase) / (sb.sBlocksize / sb.inodeSize), raBg := bg + 1 } pos := by
  simp [osdItableReadahead, enabled, packed, entered]

/-- In its own group it submits from where it is up to the stop, and is left there. -/
theorem osdItableReadahead_spec {it : ItableCursor} (inGroup : it.raBg = bg + 1)
    (gbase pos : UInt32)
    : (osdItableReadahead sb lfuRaBlocks bg gbase it pos).1.map UInt32.toNat
          = List.range' it.raNext.toNat
              (readaheadStop sb lfuRaBlocks gbase pos - it.raNext.toNat)
      ∧ (osdItableReadahead sb lfuRaBlocks bg gbase it pos).2.raNext.toNat
          = max it.raNext.toNat (readaheadStop sb lfuRaBlocks gbase pos)
      ∧ (osdItableReadahead sb lfuRaBlocks bg gbase it pos).2.raBg = bg + 1 := by
  have stop : readaheadStop sb lfuRaBlocks gbase pos
      = min ((pos - gbase) / (sb.sBlocksize / sb.inodeSize) + lfuRaBlocks).toNat
          (sb.inodesPerGroup / (sb.sBlocksize / sb.inodeSize)).toNat := by
    rw [UInt32.toNat_add]
    rfl
  unfold osdItableReadahead
  rw [if_neg (by simpa using enabled), if_neg (by simpa using packed), stop]
  simp only [inGroup, bne_self_eq_false, Bool.false_eq_true, if_false]
  generalize (pos - gbase) / (sb.sBlocksize / sb.inodeSize) + lfuRaBlocks = stop
  generalize sb.inodesPerGroup / (sb.sBlocksize / sb.inodeSize) = last
  split
  · rename_i reached
    simp only [Bool.or_eq_true, decide_eq_true_eq, ge_iff_le, UInt32.le_iff_toNat_le] at reached
    rw [Nat.sub_eq_zero_of_le (by omega)]
    exact ⟨rfl, by simp only; omega, inGroup⟩
  · obtain ⟨submitted, left⟩ :=
      breadaheadLoop_spec stop last (Nat.le_add_left last.toNat it.raNext.toNat)
    exact ⟨submitted, left, rfl⟩

theorem readaheadWalk_eq_run {it : ItableCursor} (inGroup : it.raBg = bg + 1) (walk : List UInt32)
    : (readaheadWalk sb lfuRaBlocks bg gbase it walk).map stepNats
        = Window.run (readaheadStop sb lfuRaBlocks gbase) it.raNext.toNat walk := by
  induction walk generalizing it with
  | nil => rfl
  | cons pos walk ih =>
      obtain ⟨submitted, left, stays⟩ :=
        osdItableReadahead_spec sb enabled packed inGroup gbase pos
      simp only [readaheadWalk, List.map_cons, Window.run, ih stays, left, stepNats, submitted]

/-- A walk that enters the group starts the cursor where the walk starts. -/
theorem readaheadWalk_entered {it : ItableCursor} (entered : it.raBg ≠ bg + 1)
    (start : UInt32) (walk : List UInt32)
    : (readaheadWalk sb lfuRaBlocks bg gbase it (start :: walk)).map stepNats
        = Window.run (readaheadStop sb lfuRaBlocks gbase) (tableBlock sb gbase start)
            (start :: walk) := by
  rw [readaheadWalk, osdItableReadahead_restart sb enabled packed entered]
  exact readaheadWalk_eq_run sb enabled packed rfl (start :: walk)

end Enabled

/-- Without a window, or with inodes larger than a block, nothing is submitted. -/
theorem readaheadWalk_disabled
    (disabled : lfuRaBlocks = 0 ∨ sb.sBlocksize / sb.inodeSize = 0)
    (it : ItableCursor) (walk : List UInt32)
    : readaheadWalk sb lfuRaBlocks bg gbase it walk = walk.map (·, []) := by
  have nothing (pos : UInt32) : osdItableReadahead sb lfuRaBlocks bg gbase it pos = ([], it) := by
    obtain off | off := disabled <;> simp [osdItableReadahead, off]
  induction walk with
  | nil => rfl
  | cons pos walk ih => simp only [readaheadWalk, nothing, ih, List.map_cons]

end Walk

-----------------------------------------------------------------------------------------
-- Looking ahead
-----------------------------------------------------------------------------------------

/-- Every block is submitted for an inode that is not beyond it, inside the window from that
inode's block and inside the table, and no block is submitted twice.
-/
structure LooksAhead (sb : SuperBlock) (lfuRaBlocks gbase : UInt32)
    (steps : List (UInt32 × List UInt32)) : Prop where
  ahead : ∀ step ∈ steps, ∀ index ∈ step.2, tableBlock sb gbase step.1 ≤ index.toNat
  inWindow :
    ∀ step ∈ steps, ∀ index ∈ step.2,
      index.toNat < min (tableBlock sb gbase step.1 + lfuRaBlocks.toNat) (tableBlocks sb)
  once : (steps.flatMap Prod.snd).Nodup

/-- The inodes of the group that starts at `gbase`. -/
def InGroup (sb : SuperBlock) (gbase pos : UInt32) : Prop :=
  gbase ≤ pos ∧ pos.toNat < gbase.toNat + sb.inodesPerGroup.toNat

instance (sb : SuperBlock) (gbase pos : UInt32) : Decidable (InGroup sb gbase pos) :=
  inferInstanceAs (Decidable (_ ∧ _))

theorem tableBlock_mono (sb : SuperBlock) {gbase pos pos' : UInt32} (after : gbase ≤ pos)
    (ascends : pos ≤ pos')
    : tableBlock sb gbase pos ≤ tableBlock sb gbase pos' := by
  rw [UInt32.le_iff_toNat_le] at after ascends
  simp only [tableBlock, UInt32.toNat_div]
  rw [UInt32.toNat_sub_of_le _ _ (UInt32.le_iff_toNat_le.mpr after),
    UInt32.toNat_sub_of_le _ _ (UInt32.le_iff_toNat_le.mpr (Nat.le_trans after ascends))]
  exact Nat.div_le_div_right (Nat.sub_le_sub_right ascends _)

theorem tableBlock_le (sb : SuperBlock) {gbase pos : UInt32} (inGroup : InGroup sb gbase pos)
    : tableBlock sb gbase pos ≤ tableBlocks sb := by
  simp only [tableBlock, tableBlocks, UInt32.toNat_div]
  rw [UInt32.toNat_sub_of_le _ _ inGroup.1]
  exact Nat.div_le_div_right (by have := inGroup.2; omega)

/-- Bounds and order of what the cursor hands out, as those of the blocks submitted. -/
theorem looksAhead_iff {sb : SuperBlock} {lfuRaBlocks gbase : UInt32}
    {steps : List (UInt32 × List UInt32)} {next : Nat} {walk : List UInt32}
    (run : steps.map stepNats = Window.run (readaheadStop sb lfuRaBlocks gbase) next walk)
    : LooksAhead sb lfuRaBlocks gbase steps
        ↔ Window.Ahead (tableBlock sb gbase)
            (Window.run (readaheadStop sb lfuRaBlocks gbase) next walk) := by
  rw [← run]
  constructor
  · intro looks step member
    obtain ⟨from_, submitted, rfl⟩ := List.mem_map.mp member
    exact List.forall_mem_map.mpr (looks.ahead from_ submitted)
  · intro ahead
    refine ⟨fun step member index submitted => ?_, fun step member index submitted => ?_, ?_⟩
    · exact ahead (stepNats step) (List.mem_map_of_mem member) _ (List.mem_map_of_mem submitted)
    · have member : stepNats step ∈ Window.run (readaheadStop sb lfuRaBlocks gbase) next walk :=
        run ▸ List.mem_map_of_mem member
      have below : index.toNat < readaheadStop sb lfuRaBlocks gbase step.1 :=
        Window.run_lt_stop member (List.mem_map_of_mem submitted)
      have wrapped := Nat.mod_le (tableBlock sb gbase step.1 + lfuRaBlocks.toNat) (2 ^ 32)
      simp only [readaheadStop, Window.windowStop] at below
      omega
    · have flat : (steps.flatMap Prod.snd).map UInt32.toNat
          = (Window.run (readaheadStop sb lfuRaBlocks gbase) next walk).flatMap Prod.snd := by
        rw [← run, List.map_flatMap, List.flatMap_map]
        rfl
      have increasing := Window.run_pairwise (readaheadStop sb lfuRaBlocks gbase) next walk
      rw [← flat, List.pairwise_map] at increasing
      exact increasing.imp fun before => UInt32.ne_of_lt before

/-- With inodes larger than a block every inode counts as in block 0. -/
theorem noLeap_of_unpacked {sb : SuperBlock} (unpacked : sb.sBlocksize / sb.inodeSize = 0)
    (lfuRaBlocks gbase : UInt32) (walk : List UInt32)
    : Window.NoLeap (tableBlock sb gbase) lfuRaBlocks.toNat (2 ^ 32) walk := by
  have first (pos : UInt32) : tableBlock sb gbase pos = 0 := by simp [tableBlock, unpacked]
  have narrow := lfuRaBlocks.toNat_lt
  refine ⟨(List.pairwise_of_forall fun a b _ => ?_).isChain, fun start _ wraps => ?_⟩
  · rw [first b]
    exact Nat.zero_le _
  · rw [first start] at wraps
    omega

/-- The readahead of a group only looks ahead exactly if it is off, or no gap of the walk
leads beyond the window of the inode before it.
-/
theorem readahead_looks_ahead_iff (sb : SuperBlock) (lfuRaBlocks bg gbase : UInt32)
    {it : ItableCursor} (entered : it.raBg ≠ bg + 1) {walk : List UInt32}
    (ascending : walk.Pairwise (· ≤ ·)) (inGroup : ∀ pos ∈ walk, InGroup sb gbase pos)
    : LooksAhead sb lfuRaBlocks gbase (readaheadWalk sb lfuRaBlocks bg gbase it walk)
        ↔ lfuRaBlocks = 0
          ∨ Window.NoLeap (tableBlock sb gbase) lfuRaBlocks.toNat (2 ^ 32) walk := by
  by_cases disabled : lfuRaBlocks = 0 ∨ sb.sBlocksize / sb.inodeSize = 0
  · refine iff_of_true ?_ (disabled.imp_right fun unpacked => noLeap_of_unpacked unpacked ..)
    rw [readaheadWalk_disabled sb disabled]
    have nothing : ∀ step ∈ walk.map (·, ([] : List UInt32)), step.2 = [] :=
      List.forall_mem_map.mpr fun _ _ => rfl
    exact ⟨fun step member => by simp [nothing step member],
      fun step member => by simp [nothing step member],
      by simp [List.flatMap_eq_nil_iff.mpr nothing]⟩
  rw [not_or] at disabled
  rw [or_iff_right disabled.1]
  cases walk with
  | nil =>
      refine iff_of_true ⟨?_, ?_, .nil⟩ ⟨.nil, ?_⟩
      all_goals
        intro _ member
        cases member
  | cons start walk =>
      rw [looksAhead_iff (readaheadWalk_entered sb disabled.1 disabled.2 entered start walk)]
      refine Window.ahead_iff_noLeap lfuRaBlocks.toNat_lt start ?_ fun pos member =>
        ⟨tableBlock_le sb (inGroup pos member), UInt32.toNat_lt _⟩
      exact ascending.imp_of_mem fun member _ ascends =>
        tableBlock_mono sb (inGroup _ member).1 ascends

/-- Sixteen inodes a block, four blocks a group. -/
def smallGroups : SuperBlock where
  inodeSize := 256
  sBlocksize := 4096
  sBlocksizeBits := 12
  inodesPerGroup := 64
  bits_valid := SuperBlock.bits_of_4k

theorem readahead_looks_ahead_dense
    : LooksAhead smallGroups 1 1 (readaheadWalk smallGroups 1 0 1 {} [1, 17, 33]) := by
  have inGroup : ∀ pos ∈ [1, 17, 33], InGroup smallGroups 1 pos := by
    intro pos member
    simp only [List.mem_cons, List.not_mem_nil, or_false] at member
    obtain rfl | rfl | rfl := member <;> decide
  refine (readahead_looks_ahead_iff smallGroups 1 0 1 (by decide) (by decide) inGroup).mpr
    (.inr ⟨?_, ?_⟩)
  · simp only [Window.Near]
    decide
  · rintro start ⟨⟩ wraps
    exact absurd wraps (by decide)

/-- With a window of one block, from the first block straight to the third: the second one is
submitted when the walk is past it.
-/
theorem readahead_behind_gap
    : readaheadWalk smallGroups 1 0 1 {} [1, 33] = [(1, [0]), (33, [1, 2])]
      ∧ tableBlock smallGroups 1 33 = 2
      ∧ ¬ LooksAhead smallGroups 1 1 (readaheadWalk smallGroups 1 0 1 {} [1, 33]) := by
  refine ⟨by decide, by decide, fun looks => ?_⟩
  exact absurd (looks.ahead (33, [1, 2]) (by decide) 1 (by decide)) (by decide)

end LfuScan.Osd
