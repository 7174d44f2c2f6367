import LfuScan.Device.Ldiskfs

/-! The chunks of an inode table. A chunk is left by running into an inode of the next one,
but an inode in a bad block is counted and skipped before anything looks at its number; so a
chunk also takes the bad inodes right behind its end.
-/

namespace LfuScan.Device

open LfuScan.Lustre LfuScan.Filter LfuScan.Core

/-- The groups hold at least one inode each, and the inodes of the table between them. -/
structure Ext2Super.Regular (super : Ext2Super) : Prop where
  perGroup : 1 ≤ super.sInodesPerGroup.toNat
  count : super.sInodesCount.toNat = super.sInodesPerGroup.toNat * super.groupDescCount

/-- What is in each inode; nothing can be read in a bad block. -/
abbrev InodeTable := Nat → Option Ext2InodeLarge

/-- What a call that has come to an inode gives. -/
def InodeTable.next (table : InodeTable) (ino : Nat) : NextInode :=
  match table ino with
  | none => .badBlock
  | some raw => .inode (UInt32.ofNat ino) raw

/-- The library walks the table: every group can be reached, and from there on each call
advances by one inode, to the end of the whole table.
-/
structure Walks (t : LfuLdiskfs) (table : InodeTable) : Prop where
  reach : ∀ g < t.super.groupDescCount, t.gotoBlockgroup g = true
  calls
    : ∀ g < t.super.groupDescCount,
        t.nextInodes g
          = (List.range' (g * t.super.sInodesPerGroup.toNat + 1)
                (t.super.sInodesCount.toNat - g * t.super.sInodesPerGroup.toNat)).map table.next
            ++ [.finished]

/-- Scanning the chunk to completion counts these inodes and reports this `*done`. -/
structure ChunkScan (t : LfuLdiskfs) (table : InodeTable) (idx : Nat) (inos : List Nat)
    (done : Bool)
    : Prop where
  visits
    : ∀ (env : Platform) (cx : LfuCtx),
        cx.stop = false
        → let scanned := lfuLdiskfsScanChunk env t cx idx
          let visited :=
            visitEntries env cx (inos.map fun ino => ldiskfsVisit t cx.needs (table.next ino))
          scanned.1 = visited.1 ∧ scanned.2.1 = visited.2
          ∧ (scanned.1.stop = false → scanned.2.2 = some (0, done))
  counts
    : ∀ (env : Platform) (cx : LfuCtx),
        cx.stop = false
        → cx.ops.pushdown = false
        → let st := (lfuLdiskfsScanChunk env t cx idx).1.st
          (lfuLdiskfsScanChunk env t cx idx).1.stop = false
          → st.seen + st.csumBad = cx.st.seen + cx.st.csumBad + UInt64.ofNat inos.length

/-- The chunks partition the table, given what each of them counts and reports. -/
structure Partitioned (t : LfuLdiskfs) (counted : Nat → List Nat) (done : Nat → Bool)
    : Prop where
  once
    : ∀ ino,
        1 ≤ ino
        → ino ≤ t.super.sInodesCount.toNat
        → ∃ idx, (counted idx).count ino = 1 ∧ ∀ other, other ≠ idx → ino ∉ counted other
  ends : ∃ idx, done idx = true
  last : ∀ idx, done idx = true → t.super.sInodesCount.toNat ≤ (t.endIno idx).1

theorem groupsPerChunk_pos (ipg : UInt32) : 1 ≤ (groupsPerChunk ipg).toNat := by
  unfold groupsPerChunk
  dsimp only
  generalize (if ipg != 0 then (65536 + ipg - 1) / ipg else 1) = groups
  split
  · decide
  · rename_i least
    exact UInt32.le_iff_toNat_le.mp (UInt32.not_lt.mp least)

section Bounds

variable (t : LfuLdiskfs)

/-- The inodes of a chunk that is not cut short. -/
def LfuLdiskfs.chunkWidth : Nat :=
  (groupsPerChunk t.super.sInodesPerGroup).toNat * t.super.sInodesPerGroup.toNat

theorem firstGroup_inodes (idx : Nat)
    : t.firstGroup idx * t.super.sInodesPerGroup.toNat = idx * t.chunkWidth :=
  Nat.mul_assoc _ _ _

theorem endIno_eq (idx : Nat)
    : t.endIno idx
      = (min ((idx + 1) * t.chunkWidth) t.super.sInodesCount.toNat,
          decide ((idx + 1) * t.chunkWidth > t.super.sInodesCount.toNat)) := by
  have width
      : (t.firstGroup idx + (groupsPerChunk t.super.sInodesPerGroup).toNat)
          * t.super.sInodesPerGroup.toNat
        = (idx + 1) * t.chunkWidth := by
    rw [Nat.add_mul, firstGroup_inodes, Nat.add_mul, Nat.one_mul]
    rfl
  unfold LfuLdiskfs.endIno
  rw [width]
  dsimp only
  split
  · rename_i short
    rw [Nat.min_eq_right (Nat.le_of_lt short), decide_eq_true short]
  · rename_i full
    rw [Nat.min_eq_left (Nat.not_lt.mp full), decide_eq_false full]

variable {t} (regular : t.super.Regular)
include regular

theorem chunkWidth_pos : 0 < t.chunkWidth :=
  Nat.mul_pos (groupsPerChunk_pos _) regular.perGroup

/-- A chunk without groups is one without inodes. -/
theorem firstGroup_beyond_iff (idx : Nat)
    : t.firstGroup idx ≥ t.super.groupDescCount
      ↔ t.super.sInodesCount.toNat ≤ idx * t.chunkWidth := by
  rw [← firstGroup_inodes, regular.count, Nat.mul_comm t.super.sInodesPerGroup.toNat]
  exact (Nat.mul_le_mul_right_iff regular.perGroup).symm

end Bounds

-----------------------------------------------------------------------------------------
-- The calls of a chunk
-----------------------------------------------------------------------------------------

theorem mem_takeWhile_range' {p : Nat → Bool} {start n ino : Nat}
    : ino ∈ (List.range' start n).takeWhile p
      ↔ start ≤ ino ∧ ino < start + n ∧ ∀ before, start ≤ before → before ≤ ino → p before := by
  induction n generalizing start with
  | zero =>
      simp only [List.range'_zero, List.takeWhile_nil, List.not_mem_nil, false_iff]
      omega
  | succ n ih =>
      rw [List.range'_succ, List.takeWhile_cons]
      split
      · rename_i first
        rw [List.mem_cons, ih]
        constructor
        · rintro (rfl | ⟨lower, upper, all⟩)
          · refine ⟨Nat.le_refl _, by omega, fun before least most => ?_⟩
            rwa [Nat.le_antisymm most least]
          · refine ⟨by omega, by omega, fun before least most => ?_⟩
            by_cases same : before = start
            · rwa [same]
            · exact all before (by omega) most
        · rintro ⟨lower, upper, all⟩
          by_cases same : ino = start
          · exact .inl same
          · exact .inr ⟨by omega, by omega, fun before least most => all before (by omega) most⟩
      · rename_i refused
        refine ⟨nofun, fun ⟨lower, _, all⟩ => absurd (all start (Nat.le_refl _) lower) refused⟩

/-- The calls for consecutive inodes are cut at the first readable inode above the end. -/
theorem splitChunk_table (table : InodeTable) (endIno : Nat) (done : Bool) (inos : List Nat)
    (small : ∀ ino ∈ inos, ino < 2 ^ 32)
    : splitChunk endIno done (inos.map table.next ++ [.finished])
      = (let mine := fun ino => decide (ino ≤ endIno) || (table ino).isNone
        ((inos.takeWhile mine).map table.next, some (0, done || inos.all mine))) := by
  induction inos with
  | nil => simp [splitChunk]
  | cons ino rest ih =>
      have later := ih fun ino member => small ino (List.mem_cons_of_mem _ member)
      have number : (UInt32.ofNat ino).toNat = ino :=
        UInt32.toNat_ofNat_of_lt' (small ino List.mem_cons_self)
      rw [List.map_cons, List.cons_append]
      cases read : table ino with
      | none => simp [InodeTable.next, read, splitChunk, later]
      | some raw =>
          by_cases within : ino ≤ endIno
          · simp [InodeTable.next, read, splitChunk, later, number, within, Nat.not_lt.mpr within]
          · simp [InodeTable.next, read, splitChunk, number, within, Nat.not_le.mp within]

/-- The inodes a chunk counts. -/
def LfuLdiskfs.counted (t : LfuLdiskfs) (table : InodeTable) (idx : Nat) : List Nat :=
  (List.range' (idx * t.chunkWidth + 1)
      (t.super.sInodesCount.toNat - idx * t.chunkWidth)).takeWhile
    fun ino => ino ≤ (t.endIno idx).1 || (table ino).isNone

/-- Whether a chunk reports the end: it is the last one, or it is cut short, or nothing can
be read above its end.
-/
def LfuLdiskfs.reportsDone (t : LfuLdiskfs) (table : InodeTable) (idx : Nat) : Bool :=
  (t.endIno idx).2
    || (List.range' (idx * t.chunkWidth + 1)
          (t.super.sInodesCount.toNat - idx * t.chunkWidth)).all
        fun ino => ino ≤ (t.endIno idx).1 || (table ino).isNone

section Chunks

variable {t : LfuLdiskfs} {table : InodeTable} (regular : t.super.Regular)
include regular

theorem chunk_table (walks : Walks t table) (idx : Nat)
    : t.chunk idx
      = ((t.counted table idx).map table.next, some (0, t.reportsDone table idx)) := by
  unfold LfuLdiskfs.chunk LfuLdiskfs.counted LfuLdiskfs.reportsDone
  by_cases beyond : t.firstGroup idx ≥ t.super.groupDescCount
  · have none := Nat.sub_eq_zero_of_le ((firstGroup_beyond_iff regular idx).mp beyond)
    rw [if_pos beyond, none]
    simp
  · have within := Nat.not_le.mp beyond
    have small : ∀ ino ∈ List.range' (idx * t.chunkWidth + 1)
        (t.super.sInodesCount.toNat - idx * t.chunkWidth), ino < 2 ^ 32 := by
      intro ino member
      have bound := t.super.sInodesCount.toNat_lt
      rw [List.mem_range'_1] at member
      omega
    rw [if_neg beyond, walks.reach _ within, walks.calls _ within, firstGroup_inodes,
      splitChunk_table table _ _ _ small]
    rfl

omit regular in
/-- A chunk counts from its first inode on, up to its end and the bad inodes behind it. -/
theorem mem_counted_iff {idx ino : Nat}
    : ino ∈ t.counted table idx
      ↔ idx * t.chunkWidth < ino ∧ ino ≤ t.super.sInodesCount.toNat
        ∧ ∀ before, idx * t.chunkWidth < before → (t.endIno idx).1 < before → before ≤ ino
          → table before = none := by
  rw [LfuLdiskfs.counted, mem_takeWhile_range']
  simp only [Bool.or_eq_true, decide_eq_true_eq, Option.isNone_iff_eq_none]
  constructor
  · rintro ⟨lower, upper, all⟩
    exact ⟨lower, by omega, fun before least above most =>
      (all before least most).resolve_left (Nat.not_le.mpr above)⟩
  · rintro ⟨lower, upper, all⟩
    refine ⟨lower, by omega, fun before least most => ?_⟩
    by_cases above : before ≤ (t.endIno idx).1
    · exact .inl above
    · exact .inr (all before least (Nat.not_le.mp above) most)

theorem reportsDone_eventually : ∃ idx, t.reportsDone table idx = true := by
  refine ⟨t.super.sInodesCount.toNat, ?_⟩
  have most : t.super.sInodesCount.toNat ≤ t.super.sInodesCount.toNat * t.chunkWidth :=
    Nat.le_mul_of_pos_right _ (chunkWidth_pos regular)
  rw [LfuLdiskfs.reportsDone, Nat.sub_eq_zero_of_le most]
  simp

omit regular in
/-- A chunk that is not the last ends where the next one begins. -/
theorem endIno_before_end {idx : Nat} (more : (t.endIno idx).1 < t.super.sInodesCount.toNat)
    : (t.endIno idx).1 = (idx + 1) * t.chunkWidth := by
  rw [endIno_eq] at more ⊢
  dsimp only at more ⊢
  omega

/-- Every inode is counted by the chunk it belongs to. -/
theorem counted_home {ino : Nat} (lower : 1 ≤ ino) (upper : ino ≤ t.super.sInodesCount.toNat)
    : ino ∈ t.counted table ((ino - 1) / t.chunkWidth) := by
  have positive := chunkWidth_pos regular
  have least : (ino - 1) / t.chunkWidth * t.chunkWidth ≤ ino - 1 := Nat.div_mul_le_self _ _
  have most : ino - 1 < ((ino - 1) / t.chunkWidth + 1) * t.chunkWidth := by
    rw [Nat.add_mul, Nat.one_mul]
    exact Nat.lt_div_mul_add positive
  refine mem_counted_iff.mpr ⟨by omega, upper, fun before _ above within => ?_⟩
  rw [endIno_eq] at above
  dsimp only at above
  omega

omit regular in
/-- Where no chunk is followed by a bad inode, only the chunk it belongs to counts an inode. -/
theorem counted_only
    (readable
      : ∀ idx, (t.endIno idx).1 < t.super.sInodesCount.toNat
          → table ((t.endIno idx).1 + 1) ≠ none)
    {idx ino : Nat} (member : ino ∈ t.counted table idx)
    : (ino - 1) / t.chunkWidth = idx := by
  obtain ⟨lower, upper, bad⟩ := mem_counted_iff.mp member
  have within : ino ≤ (t.endIno idx).1 := by
    by_contra beyond
    have more : (t.endIno idx).1 < t.super.sInodesCount.toNat := by omega
    have next := endIno_before_end more
    refine readable idx more (bad _ ?_ (Nat.lt_succ_self _) (by omega))
    rw [next, Nat.add_mul]
    omega
  rw [endIno_eq] at within
  dsimp only at within
  refine Nat.div_eq_of_lt_le (by omega) ?_
  omega

theorem counted_partitioned_iff
    : Partitioned t (t.counted table) (t.reportsDone table)
      ↔ ∀ idx, (t.endIno idx).1 < t.super.sInodesCount.toNat
          → table ((t.endIno idx).1 + 1) ≠ none := by
  constructor
  · -- a bad inode behind a chunk is counted by that chunk and by the next
    intro partitioned idx more bad
    have next := endIno_before_end more
    have positive := chunkWidth_pos regular
    have here : (t.endIno idx).1 + 1 ∈ t.counted table idx := by
      refine mem_counted_iff.mpr ⟨?_, more, fun before _ above most => ?_⟩
      · rw [next, Nat.add_mul]
        omega
      · rwa [Nat.le_antisymm most above]
    have there : (t.endIno idx).1 + 1 ∈ t.counted table (idx + 1) := by
      refine mem_counted_iff.mpr ⟨by omega, more, fun before least above most => ?_⟩
      rwa [Nat.le_antisymm most (by omega)]
    obtain ⟨only, _, others⟩ := partitioned.once _ (Nat.le_add_left _ _) more
    have first : idx = only := by
      by_contra other
      exact others idx other here
    have second : idx + 1 = only := by
      by_contra other
      exact others (idx + 1) other there
    omega
  · intro readable
    refine ⟨fun ino lower upper => ⟨(ino - 1) / t.chunkWidth, ?_, fun other different member => ?_⟩,
      reportsDone_eventually regular, fun idx done => ?_⟩
    · have nodup : (t.counted table ((ino - 1) / t.chunkWidth)).Nodup :=
        List.Nodup.sublist (List.takeWhile_sublist _) (List.nodup_range' ..)
      exact List.count_eq_one_of_mem nodup (counted_home regular lower upper)
    · exact different (counted_only readable member).symm
    · by_contra more
      have more := Nat.not_le.mp more
      have next := endIno_before_end more
      rw [LfuLdiskfs.reportsDone, Bool.or_eq_true] at done
      rcases done with short | all
      · rw [endIno_eq] at short more
        simp only [decide_eq_true_eq] at short more
        omega
      · refine readable idx more ?_
        rw [Nat.add_mul] at next
        have above := List.all_eq_true.mp all ((t.endIno idx).1 + 1)
          (List.mem_range'_1.mpr (by omega))
        simpa using above

omit regular in
/-- Every call that has come to an inode counts it once. -/
theorem next_seenOrBad (env : Platform) {base : LfuCtx} (fresh : base.base = base)
    (notPushed : base.ops.pushdown = false) (needs : UInt32) (ino : Nat)
    : Counter.seenOrBad (visitStats env base (ldiskfsVisit t needs (table.next ino))) = 1 := by
  have exited {own : LfuStats} (once : own.seen + own.csumBad = 1)
      : Counter.seenOrBad (visitStats env base { own }) = 1 := by
    rw [visitStats_own env fresh]
    exact once
  have handed (tier2 : UInt64) (rec : LfuRec) (haveLma : Bool) (eas : Option LfuEas)
      : Counter.seenOrBad
          (visitStats env base
            { own := { seen := 1, inUse := 1, tier2 }, object := some (rec, haveLma, eas) })
        = 1 := by
    obtain ⟨backend, _⟩ :=
      visitStats_object env fresh notPushed { seen := 1, inUse := 1, tier2 } rfl rec haveLma eas
    exact (congrArg (fun st => st.seen + st.csumBad) backend :)
  unfold InodeTable.next
  split
  · exact exited rfl
  · simp only [ldiskfsVisit]
    split
    · exact exited rfl
    · split
      · exact exited rfl
      · split
        · exact exited rfl
        · split
          · exact exited rfl
          · exact handed _ _ _ _

omit regular in
theorem seenOrBad_sum (env : Platform) {base : LfuCtx} (fresh : base.base = base)
    (notPushed : base.ops.pushdown = false) (needs : UInt32) (inos : List Nat)
    : Counter.seenOrBad
        ((inos.map (ldiskfsVisit t needs ∘ table.next)).map (visitStats env base)).sum
      = UInt64.ofNat inos.length := by
  induction inos with
  | nil => rfl
  | cons ino rest ih =>
      rw [List.map_cons, List.map_cons, List.sum_cons, map_add, ih, Function.comp_apply,
        next_seenOrBad env fresh notPushed, List.length_cons, UInt64.ofNat_add, UInt64.add_comm]
      rfl

/-- The counters say how many inodes a chunk has taken. -/
theorem chunkScan_counted (walks : Walks t table) (idx : Nat)
    : ChunkScan t table idx (t.counted table idx) (t.reportsDone table idx) := by
  have visits (env : Platform) {cx : LfuCtx} (going : cx.stop = false) :=
    lfuLdiskfsScanChunk_visits env t going idx
  simp only [ldiskfsBackend, chunk_table regular walks, List.map_map] at visits
  refine ⟨fun env cx going => ?_, fun env cx going notPushed => ?_⟩
  · rw [visits env going]
    exact ⟨rfl, rfl, fun went => if_neg (Bool.eq_false_iff.mp went)⟩
  · rw [visits env going]
    intro st went
    have sum := congrArg Counter.seenOrBad (visitEntries_counts env went)
    rw [map_add, seenOrBad_sum env (rfl : cx.base.base = cx.base) notPushed] at sum
    exact sum

end Chunks

/-- The chunks partition the inode table if and only if no chunk that is not the last is
followed by an inode in a bad block.
-/
theorem ldiskfs_chunks_partition_iff (t : LfuLdiskfs) (table : InodeTable)
    (regular : t.super.Regular) (walks : Walks t table)
    : (∀ idx, ChunkScan t table idx (t.counted table idx) (t.reportsDone table idx))
      ∧ (Partitioned t (t.counted table) (t.reportsDone table)
          ↔ ∀ idx, (t.endIno idx).1 < t.super.sInodesCount.toNat
              → table ((t.endIno idx).1 + 1) ≠ none) :=
  ⟨chunkScan_counted regular walks, counted_partitioned_iff regular⟩

/-- A target with a given table, all of it allocated and without attributes. -/
def tableTarget (super : Ext2Super) (table : InodeTable) : LfuLdiskfs where
  super
  inodeMap _ := true
  gotoBlockgroup _ := true
  nextInodes g :=
    (List.range' (g * super.sInodesPerGroup.toNat + 1)
        (super.sInodesCount.toNat - g * super.sInodesPerGroup.toNat)).map table.next
      ++ [.finished]
  xattrs _ := {}

theorem tableTarget_walks (super : Ext2Super) (table : InodeTable)
    : Walks (tableTarget super table) table :=
  ⟨fun _ _ => rfl, fun _ _ => rfl⟩

/-- Two groups of 65536 inodes, each of them a chunk. -/
def twoGroups : Ext2Super where
  inodeSize := 256
  sInodesPerGroup := 65536
  sInodesCount := 131072
  firstInode := 11
  groupDescCount := 2

theorem twoGroups_regular : twoGroups.Regular := ⟨by decide, by decide⟩

/-- A table that can be read throughout. -/
theorem ldiskfs_chunks_partition_readable
    : let table : InodeTable := fun _ => some {}
      let t := tableTarget twoGroups table
      (∀ idx, ChunkScan t table idx (t.counted table idx) (t.reportsDone table idx))
        ∧ Partitioned t (t.counted table) (t.reportsDone table) := by
  intro table t
  obtain ⟨scans, partitioned⟩ :=
    ldiskfs_chunks_partition_iff t table twoGroups_regular (tableTarget_walks _ _)
  exact ⟨scans, partitioned.mpr fun _ _ => nofun⟩

/-- If the first inode of the second group is in a bad block, both chunks count it. -/
theorem bad_inode_counted_twice
    : let table := fun ino : Nat => if ino = 65537 then none else some {}
      let t := tableTarget twoGroups table
      (∀ idx, ChunkScan t table idx (t.counted table idx) (t.reportsDone table idx))
        ∧ 65537 ∈ t.counted table 0
        ∧ 65537 ∈ t.counted table 1 := by
  intro table t
  refine ⟨chunkScan_counted (t := t) twoGroups_regular (tableTarget_walks _ table), ?_, ?_⟩
  · have ends : (t.endIno 0).1 = 65536 := by decide
    refine mem_counted_iff.mpr ⟨by decide, by decide, fun before _ above most => ?_⟩
    have same : before = 65537 := by omega
    exact if_pos same
  · have ends : (t.endIno 1).1 = 131072 := by decide
    refine mem_counted_iff.mpr ⟨by decide, by decide, fun before _ above most => ?_⟩
    omega

end LfuScan.Device
