import LfuScan.ScanDevice.Delivery
import LfuScan.Device.Geometry
import LfuScan.Foundations.Chunking

/-! The ldiskfs backend of a scan of a target. A chunk is a run of block groups; its bound is
asked of an inode that cannot be read as well, so that the chunks cut the inode table without
a gap and without an overlap.
-/

namespace LfuScan.ScanDevice

open LfuScan.Lustre LfuScan.Foundations LfuScan.Filter

-----------------------------------------------------------------------------------------
-- One inode
-----------------------------------------------------------------------------------------

/-- `struct ext2_inode_large`, with what only this scan reads of it. -/
structure Ext2Inode extends Device.Ext2InodeLarge where
  iGeneration : UInt32 := 0
  iBlock0 : UInt32 := 0
  iBlock1 : UInt32 := 0

/-- What one `ext2fs_get_next_inode_full` after another gives: an error that describes one
inode only, an inode, an error that stops the walk, or the end of the table.
-/
inductive InodeCalls
  | finished
  | failed
  | unreadable (ino : UInt32) (rest : InodeCalls)
  | inode (ino : UInt32) (raw : Ext2Inode) (rest : InodeCalls)

/-- The target as it was opened: its super block and its allocation bitmap, whether a block
group can be reached and what the calls for the next inode give from there on, the attributes
of each inode unless they cannot be read, and the blocks libext2fs counts of an inode.
-/
structure ScanLdiskfsTgt where
  super : Device.Ext2Super
  hasFeatureProject : Bool := false
  sPrjQuotaInum : UInt32 := 0
  inodeMap : UInt32 → Bool
  gotoBlockgroup : Nat → Bool
  calls : Nat → InodeCalls
  xattrs : UInt32 → Option (ScanXattr → Option Bytes)
  statIBlocks : Ext2Inode → UInt64

def scanInodePlausible (inode : Ext2Inode) (inodeSize : Nat) : Bool :=
  Device.lfuInodePlausible inode.toExt2InodeLarge inodeSize

def scanExt4EpochMask : UInt32 := 0x3

def scanInodeTime (secs extra : UInt32) (haveExtra : Bool) : Int64 :=
  let t := secs.toInt32.toInt64
  if haveExtra then t + (extra &&& scanExt4EpochMask).toUInt64.toInt64 <<< 32 else t

/-- `i_extra_isize` reaches the field that ends there. -/
def scanInodeHas (inode : Ext2Inode) (inodeSize fieldEnd : Nat) : Bool :=
  let have_ :=
    if inodeSize > Device.goodOldInodeSize then
      Device.goodOldInodeSize + inode.iExtraIsize.toNat
    else
      0
  have_ ≥ fieldEnd

/-- `i_rdev` as `ext4_iget` reads it. -/
def scanInodeRdev (inode : Ext2Inode) : UInt32 :=
  let old : UInt32 := inode.iBlock0
  let new : UInt32 := inode.iBlock1
  if old != 0 then
    ((old >>> 8 &&& 0xff) <<< 20) ||| (old &&& 0xff)
  else
    (((new &&& (0xfff00 : UInt32)) >>> 8) <<< 20) ||| (new &&& (0xff : UInt32))
      ||| (new >>> 12 &&& (0xfff00 : UInt32))

def scanInodeAttrs (t : ScanLdiskfsTgt) (inode : Ext2Inode) (ino : UInt32) : LlapiScanObj :=
  let mode := inode.iMode.toUInt32
  let has := scanInodeHas inode t.super.inodeSize
  let xtra := has Device.atimeExtraEnd
  {
    soId := ino.toUInt64
    soMode := mode
    soNlink := inode.iLinksCount.toUInt32
    soUid := Device.joinId inode.iUid inode.lIUidHigh
    soGid := Device.joinId inode.iGid inode.lIGidHigh
    soSize := inode.iSize.toUInt64 ||| inode.iSizeHigh.toUInt64 <<< 32
    soBlocks := t.statIBlocks inode
    soGen := inode.iGeneration
    soRdev := if sIschr mode || sIsblk mode then scanInodeRdev inode else 0
    soFlags := inode.iFlags &&& (statxAttrImmutable ||| statxAttrAppend)
    soAttrsMask := statxAttrImmutable ||| statxAttrAppend
    soAtime := scanInodeTime inode.iAtime inode.iAtimeExtra xtra
    soMtime := scanInodeTime inode.iMtime inode.iMtimeExtra xtra
    soCtime := scanInodeTime inode.iCtime inode.iCtimeExtra xtra
    soBtime :=
      if has Device.crtimeEnd then
        scanInodeTime inode.iCrtime inode.iCrtimeExtra (has Device.crtimeExtraEnd)
      else
        0
    soProjid := if has Device.projidEnd then inode.iProjid else 0
    soValid := scanSoGen ||| (if has Device.crtimeEnd then scanSoBtime else 0)
      ||| (if has Device.projidEnd then scanSoProjid else 0)
  }

def scanXattrs : List ScanXattr := [.lma, .lov, .lmv, .som, .link, .hsm, .pfid]

/-- `SCAN_EA_BUFS`, the number of values that can be held for freeing. -/
def scanEaBufs : Nat := 7

/-- One value fetched, with the number of values held. -/
def scanEaFetch (h : ScanXattr → Option Bytes) (x : ScanXattr)
    (held : (ScanXattr → Option Bytes) × Nat)
    : (ScanXattr → Option Bytes) × Nat :=
  if held.2 = scanEaBufs then
    held
  else
    match h x with
    | none => held
    | some val => (Function.update held.1 x (some val), held.2 + 1)

def scanEaFetchSet (h : ScanXattr → Option Bytes) (want : ScanXattr → Bool)
    : (ScanXattr → Option Bytes) × Nat :=
  scanXattrs.foldl (fun held x => if want x then scanEaFetch h x held else held)
    (fun _ => none, 0)

/-- The object with the attributes asked for, unless they cannot be read. -/
def scanReadXattrs (t : ScanLdiskfsTgt) (want : ScanXattr → Bool) (ino : UInt32)
    (obj : LlapiScanObj)
    : Option LlapiScanObj :=
  (t.xattrs ino).map fun h => { obj with soXattr := (scanEaFetchSet h want).1 }

/-- The inodes ldiskfs keeps for itself. -/
def scanInoIsFsOwn (t : ScanLdiskfsTgt) (ino : UInt32) : Bool :=
  ino < t.super.firstInode || t.hasFeatureProject && ino == t.sPrjQuotaInum

def ext4EaInodeFl : UInt32 := 0x00200000

theorem io_early : ScanSkip.io ≠ .xattr := by decide

theorem invalid_early : ScanSkip.invalid ≠ .xattr := by decide

/-- An inode that cannot be read, if there is an object in it. -/
def unreadableItem (t : ScanLdiskfsTgt) (ino : UInt32) : Option Item :=
  if scanInoIsFsOwn t ino then
    none
  else if !t.inodeMap ino then
    none
  else
    some (.unread .io io_early)

/-- An inode, if there is an object in it. -/
def inodeItem (t : ScanLdiskfsTgt) (want : ScanXattr → Bool) (ino : UInt32) (raw : Ext2Inode)
    : Option Item :=
  if scanInoIsFsOwn t ino then
    none
  else if !t.inodeMap ino then
    none
  else if !scanInodePlausible raw t.super.inodeSize then
    some (.unread .invalid invalid_early)
  else if raw.iFlags &&& ext4EaInodeFl != 0 then
    none
  else
    let obj := scanInodeAttrs t raw ino
    some (.object obj (scanReadXattrs t want ino obj))

theorem eio_negative : -eio < 0 := by decide

def ScanLdiskfsTgt.stGroupsPerChunk (t : ScanLdiskfsTgt) : UInt32 :=
  Device.groupsPerChunk t.super.sInodesPerGroup

def ScanLdiskfsTgt.ttChunks (t : ScanLdiskfsTgt) : Nat :=
  ((UInt32.ofNat t.super.groupDescCount + t.stGroupsPerChunk - 1) / t.stGroupsPerChunk).toNat

def ScanLdiskfsTgt.firstGroup (t : ScanLdiskfsTgt) (idx : Nat) : Nat :=
  idx * t.stGroupsPerChunk.toNat

/-- The last inode of a chunk, and whether that is the last one of the table. -/
def ScanLdiskfsTgt.endIno (t : ScanLdiskfsTgt) (idx : Nat) : Nat × Bool :=
  let endIno :=
    (t.firstGroup idx + t.stGroupsPerChunk.toNat) * t.super.sInodesPerGroup.toNat
  if endIno ≥ t.super.sInodesCount.toNat then (t.super.sInodesCount.toNat, true)
  else (endIno, false)

/-- The inode loop of `scan_ldiskfs_scan_chunk`, while the sink lets it go on. -/
def scanLdiskfsLoop (t : ScanLdiskfsTgt) (want : ScanXattr → Bool) (endIno : Nat) (done : Bool)
    : InodeCalls → List Item × ChunkEnd
  | .finished => ([], .done)
  | .failed => ([], .failed (-eio) eio_negative)
  | .unreadable ino rest =>
      if ino.toNat > endIno then
        ([], if done then .done else .more)
      else
        let (items, ends) := scanLdiskfsLoop t want endIno done rest
        ((unreadableItem t ino).toList ++ items, ends)
  | .inode ino raw rest =>
      if ino.toNat > endIno then
        ([], if done then .done else .more)
      else
        let (items, ends) := scanLdiskfsLoop t want endIno done rest
        ((inodeItem t want ino raw).toList ++ items, ends)

def scanLdiskfsScanChunk (t : ScanLdiskfsTgt) (want : ScanXattr → Bool) (idx : Nat)
    : List Item × ChunkEnd :=
  if t.firstGroup idx ≥ t.super.groupDescCount then
    ([], .done)
  else
    let (endIno, done) := t.endIno idx
    if !t.gotoBlockgroup (t.firstGroup idx) then
      ([], .failed (-eio) eio_negative)
    else
      scanLdiskfsLoop t want endIno done (t.calls (t.firstGroup idx))

def scanLdiskfsBackend (t : ScanLdiskfsTgt) (want : ScanXattr → Bool) : Backend where
  chunk idx := (scanLdiskfsScanChunk t want idx).1
  ends idx := (scanLdiskfsScanChunk t want idx).2

-----------------------------------------------------------------------------------------
-- The inode table
-----------------------------------------------------------------------------------------

/-- A place of the inode table: in a part that was never used, in a block that cannot be read,
or an inode.
-/
inductive InodeSlot
  | missing
  | unreadable
  | readable (raw : Ext2Inode)

/-- The places of a target, by the number of the inode. -/
abbrev SlotTable := Nat → InodeSlot

/-- What the calls give from an inode on, over this many places. -/
def SlotTable.calls (table : SlotTable) (ino : Nat) : Nat → InodeCalls
  | 0 => .finished
  | n + 1 =>
      match table ino with
      | .missing => table.calls (ino + 1) n
      | .unreadable => .unreadable (UInt32.ofNat ino) (table.calls (ino + 1) n)
      | .readable raw => .inode (UInt32.ofNat ino) raw (table.calls (ino + 1) n)

/-- The library walks the table: every group can be reached, and from there on the calls come
to each inode, to the end of the whole table.
-/
structure ScanLdiskfsTgt.Walks (t : ScanLdiskfsTgt) (table : SlotTable) : Prop where
  reach : ∀ g < t.super.groupDescCount, t.gotoBlockgroup g = true
  calls
    : ∀ g < t.super.groupDescCount,
        t.calls g
          = table.calls (g * t.super.sInodesPerGroup.toNat + 1)
              (t.super.sInodesCount.toNat - g * t.super.sInodesPerGroup.toNat)

/-- What the scan comes across at an inode. -/
def ScanLdiskfsTgt.slotItems (t : ScanLdiskfsTgt) (want : ScanXattr → Bool)
    (table : SlotTable) (ino : Nat)
    : List Item :=
  match table ino with
  | .missing => []
  | .unreadable => (unreadableItem t (UInt32.ofNat ino)).toList
  | .readable raw => (inodeItem t want (UInt32.ofNat ino) raw).toList

/-- Everything on the target, inode by inode. -/
def ScanLdiskfsTgt.items (t : ScanLdiskfsTgt) (want : ScanXattr → Bool) (table : SlotTable)
    : List Item :=
  (List.range' 1 t.super.sInodesCount.toNat).flatMap (t.slotItems want table)

section Loop

variable {t : ScanLdiskfsTgt} {want : ScanXattr → Bool} {table : SlotTable} {endIno : Nat}
  {done : Bool}

/-- An inode of the chunk. -/
theorem scanLdiskfsLoop_within {ino : Nat} (n : Nat) (small : ino < UInt32.size)
    (within : ino ≤ endIno)
    : scanLdiskfsLoop t want endIno done (table.calls ino (n + 1))
      = (t.slotItems want table ino
            ++ (scanLdiskfsLoop t want endIno done (table.calls (ino + 1) n)).1,
          (scanLdiskfsLoop t want endIno done (table.calls (ino + 1) n)).2) := by
  have number : (UInt32.ofNat ino).toNat = ino := UInt32.toNat_ofNat_of_lt' small
  rw [SlotTable.calls, ScanLdiskfsTgt.slotItems]
  cases table ino with
  | missing => rfl
  | unreadable => simp only [scanLdiskfsLoop, number, if_neg (Nat.not_lt.mpr within)]
  | readable raw => simp only [scanLdiskfsLoop, number, if_neg (Nat.not_lt.mpr within)]

/-- An inode behind the chunk ends it, whether it can be read or not. -/
theorem scanLdiskfsLoop_past {ino : Nat} (n : Nat) (small : ino < UInt32.size)
    (past : endIno < ino) (present : table ino ≠ .missing)
    : scanLdiskfsLoop t want endIno done (table.calls ino (n + 1))
      = ([], if done then .done else .more) := by
  have number : (UInt32.ofNat ino).toNat = ino := UInt32.toNat_ofNat_of_lt' small
  rw [SlotTable.calls]
  cases slot : table ino with
  | missing => exact absurd slot present
  | unreadable => simp only [scanLdiskfsLoop, number, if_pos past]
  | readable raw => simp only [scanLdiskfsLoop, number, if_pos past]

/-- What the loop takes, and how it ends: it takes the inodes up to its bound, does not fail,
and reports the end of the table only if that was the bound or if nothing is behind it.
-/
structure Looped (t : ScanLdiskfsTgt) (want : ScanXattr → Bool) (table : SlotTable)
    (endIno : Nat) (done : Bool) (ino n : Nat) (looped : List Item × ChunkEnd)
    : Prop where
  items
    : looped.1 = (List.range' ino (endIno + 1 - ino)).flatMap (t.slotItems want table)
  scans : ∀ rc negative, looped.2 ≠ .failed rc negative
  behind
    : looped.2 = .done → done = false
      → ∀ later, endIno < later → ino ≤ later → later < ino + n → table later = .missing

theorem scanLdiskfsLoop_table (ino n : Nat) (small : ino + n ≤ UInt32.size)
    (bound : endIno < ino + n)
    : Looped t want table endIno done ino n
        (scanLdiskfsLoop t want endIno done (table.calls ino n)) := by
  induction n generalizing ino with
  | zero =>
      have none_ : endIno + 1 - ino = 0 := by omega
      refine ⟨by rw [none_]; rfl, fun _ _ => ChunkEnd.noConfusion, ?_⟩
      intro _ _ later _ lower upper
      omega
  | succ n ih =>
      have next := ih (ino + 1) (by omega) (by omega)
      by_cases within : ino ≤ endIno
      · have width : endIno + 1 - ino = (endIno + 1 - (ino + 1)) + 1 := by omega
        rw [scanLdiskfsLoop_within n (by omega) within]
        refine ⟨?_, next.scans, ?_⟩
        · rw [width, List.range'_succ, List.flatMap_cons, ← next.items]
        · intro ended flag later past lower upper
          exact next.behind ended flag later past (by omega) (by omega)
      · have past := Nat.not_le.mp within
        have empty : endIno + 1 - ino = 0 := by omega
        by_cases present : table ino = .missing
        · have skipped : table.calls ino (n + 1) = table.calls (ino + 1) n := by
            rw [SlotTable.calls, present]
          rw [skipped]
          refine ⟨?_, next.scans, ?_⟩
          · have later : endIno + 1 - (ino + 1) = 0 := by omega
            rw [next.items, empty, later]
            rfl
          · intro ended flag later behind lower upper
            rcases Nat.eq_or_lt_of_le lower with same | lower
            · rw [← same, present]
            · exact next.behind ended flag later behind lower (by omega)
        · rw [scanLdiskfsLoop_past n (by omega) past present]
          refine ⟨by rw [empty]; rfl, ?_, ?_⟩
          · intro rc negative
            cases done <;> exact ChunkEnd.noConfusion
          · intro ended flag
            rw [flag] at ended
            cases ended

end Loop

section Chunks

/-- The inodes of a chunk that is not cut short. -/
def ScanLdiskfsTgt.chunkWidth (t : ScanLdiskfsTgt) : Nat :=
  t.stGroupsPerChunk.toNat * t.super.sInodesPerGroup.toNat

theorem ScanLdiskfsTgt.firstGroup_inodes (t : ScanLdiskfsTgt) (idx : Nat)
    : t.firstGroup idx * t.super.sInodesPerGroup.toNat = idx * t.chunkWidth :=
  Nat.mul_assoc _ _ _

theorem ScanLdiskfsTgt.endIno_eq (t : ScanLdiskfsTgt) (idx : Nat)
    : t.endIno idx
      = (chunkStop t.chunkWidth t.super.sInodesCount.toNat idx,
          decide ((idx + 1) * t.chunkWidth ≥ t.super.sInodesCount.toNat)) := by
  have width
      : (t.firstGroup idx + t.stGroupsPerChunk.toNat) * t.super.sInodesPerGroup.toNat
        = (idx + 1) * t.chunkWidth := by
    rw [Nat.add_mul, firstGroup_inodes, Nat.add_mul, Nat.one_mul]
    rfl
  rw [endIno, width, chunkStop]
  split
  · rename_i last
    rw [Nat.min_eq_right last, decide_eq_true last]
  · rename_i more
    rw [Nat.min_eq_left (Nat.le_of_not_le more), decide_eq_false more]

variable {t : ScanLdiskfsTgt} {want : ScanXattr → Bool} {table : SlotTable}
  (regular : t.super.Regular)
include regular

/-- A chunk without groups is one without inodes. -/
theorem ScanLdiskfsTgt.firstGroup_beyond_iff (idx : Nat)
    : t.firstGroup idx ≥ t.super.groupDescCount
      ↔ t.super.sInodesCount.toNat ≤ idx * t.chunkWidth := by
  rw [← firstGroup_inodes, regular.count, Nat.mul_comm t.super.sInodesPerGroup.toNat]
  exact (Nat.mul_le_mul_right_iff regular.perGroup).symm

/-- The chunks `tt_chunks` counts reach the end of the table. -/
theorem ScanLdiskfsTgt.ttChunks_reach
    (fits : t.super.groupDescCount + t.stGroupsPerChunk.toNat < UInt32.size)
    : t.super.sInodesCount.toNat ≤ t.ttChunks * t.chunkWidth := by
  have positive : 0 < t.stGroupsPerChunk.toNat := Device.groupsPerChunk_pos _
  have sum : (UInt32.ofNat t.super.groupDescCount + t.stGroupsPerChunk).toNat
      = t.super.groupDescCount + t.stGroupsPerChunk.toNat := by
    have few := Nat.lt_of_le_of_lt (Nat.le_add_right _ t.stGroupsPerChunk.toNat) fits
    rw [UInt32.toNat_add, UInt32.toNat_ofNat_of_lt' few]
    exact Nat.mod_eq_of_lt fits
  have one : (1 : UInt32) ≤ UInt32.ofNat t.super.groupDescCount + t.stGroupsPerChunk := by
    rw [UInt32.le_iff_toNat_le, sum]
    exact Nat.le_add_left_of_le positive
  have chunks : t.ttChunks
      = (t.super.groupDescCount + t.stGroupsPerChunk.toNat - 1) / t.stGroupsPerChunk.toNat := by
    rw [ttChunks, UInt32.toNat_div, UInt32.toNat_sub_of_le _ _ one, sum]
    rfl
  have groups : t.super.groupDescCount ≤ t.ttChunks * t.stGroupsPerChunk.toNat := by
    have whole : t.super.groupDescCount + t.stGroupsPerChunk.toNat - 1
        < (t.super.groupDescCount + t.stGroupsPerChunk.toNat - 1) / t.stGroupsPerChunk.toNat
            * t.stGroupsPerChunk.toNat + t.stGroupsPerChunk.toNat :=
      Nat.lt_div_mul_add positive
    rw [chunks]
    omega
  rw [regular.count, chunkWidth, ← Nat.mul_assoc, Nat.mul_comm]
  exact Nat.mul_le_mul_right _ groups

variable (walks : t.Walks table)
include walks

omit regular in
/-- A chunk with a group is the loop over what is left of the table from there. -/
theorem scanLdiskfsScanChunk_within {idx : Nat}
    (group : t.firstGroup idx < t.super.groupDescCount)
    : scanLdiskfsScanChunk t want idx
      = scanLdiskfsLoop t want (chunkStop t.chunkWidth t.super.sInodesCount.toNat idx)
          (decide ((idx + 1) * t.chunkWidth ≥ t.super.sInodesCount.toNat))
          (table.calls (idx * t.chunkWidth + 1)
            (t.super.sInodesCount.toNat - idx * t.chunkWidth)) := by
  rw [scanLdiskfsScanChunk, if_neg (Nat.not_le.mpr group), ScanLdiskfsTgt.endIno_eq,
    walks.reach _ group, walks.calls _ group, ScanLdiskfsTgt.firstGroup_inodes]
  rfl

/-- What a chunk takes of the table, and what it says by ending. -/
structure Chunked (t : ScanLdiskfsTgt) (want : ScanXattr → Bool) (table : SlotTable)
    (idx : Nat)
    : Prop where
  items
    : (scanLdiskfsScanChunk t want idx).1
      = (List.range' (idx * t.chunkWidth + 1)
            (chunkStop t.chunkWidth t.super.sInodesCount.toNat idx - idx * t.chunkWidth)).flatMap
          (t.slotItems want table)
  scans : ∀ rc negative, (scanLdiskfsScanChunk t want idx).2 ≠ .failed rc negative
  behind
    : (scanLdiskfsScanChunk t want idx).2 = .done
      → ∀ ino, (idx + 1) * t.chunkWidth < ino → ino ≤ t.super.sInodesCount.toNat
        → t.slotItems want table ino = []

theorem scanLdiskfsScanChunk_table (idx : Nat) : Chunked t want table idx := by
  have width := Nat.add_mul idx 1 t.chunkWidth
  by_cases beyond : t.firstGroup idx ≥ t.super.groupDescCount
  · have past := (ScanLdiskfsTgt.firstGroup_beyond_iff regular idx).mp beyond
    have scanned : scanLdiskfsScanChunk t want idx = ([], .done) := if_pos beyond
    have empty
        : chunkStop t.chunkWidth t.super.sInodesCount.toNat idx - idx * t.chunkWidth = 0 := by
      rw [chunkStop]
      omega
    refine ⟨by rw [scanned, empty]; rfl, ?_, ?_⟩
    · rw [scanned]
      exact fun _ _ => ChunkEnd.noConfusion
    · intro _ ino behind within
      omega
  · have group := Nat.not_le.mp beyond
    have before := Nat.not_le.mp (mt (ScanLdiskfsTgt.firstGroup_beyond_iff regular idx).mpr beyond)
    have stop : chunkStop t.chunkWidth t.super.sInodesCount.toNat idx
        ≤ t.super.sInodesCount.toNat := Nat.min_le_right _ _
    have small : t.super.sInodesCount.toNat < UInt32.size := t.super.sInodesCount.toNat_lt
    have looped
        : Looped t want table (chunkStop t.chunkWidth t.super.sInodesCount.toNat idx)
            (decide ((idx + 1) * t.chunkWidth ≥ t.super.sInodesCount.toNat))
            (idx * t.chunkWidth + 1) (t.super.sInodesCount.toNat - idx * t.chunkWidth)
            (scanLdiskfsScanChunk t want idx) := by
      rw [scanLdiskfsScanChunk_within walks group]
      exact scanLdiskfsLoop_table _ _ (by omega) (by omega)
    refine ⟨?_, looped.scans, ?_⟩
    · rw [looped.items, Nat.add_sub_add_right]
    · intro ended ino behind within
      have more : decide ((idx + 1) * t.chunkWidth ≥ t.super.sInodesCount.toNat) = false :=
        decide_eq_false (by omega)
      have stopped : chunkStop t.chunkWidth t.super.sInodesCount.toNat idx < ino :=
        Nat.lt_of_le_of_lt (Nat.min_le_left _ _) behind
      rw [ScanLdiskfsTgt.slotItems, looped.behind ended more ino stopped (by omega) (by omega)]

/-- The chunks in order are the inodes in order. -/
theorem scanLdiskfsBackend_items
    (fits : t.super.groupDescCount + t.stGroupsPerChunk.toNat < UInt32.size)
    : (scanLdiskfsBackend t want).items t.ttChunks = t.items want table := by
  have chunked (idx : Nat) : Chunked t want table idx :=
    scanLdiskfsScanChunk_table regular walks idx
  rw [Backend.items, ScanLdiskfsTgt.items,
    ← Nat.min_eq_right (ScanLdiskfsTgt.ttChunks_reach regular fits), ← flatMap_chunks]
  refine congrArg (fun f => (List.range t.ttChunks).flatMap f) (funext fun idx => ?_)
  exact (chunked idx).items

theorem scanLdiskfsBackend_doneSound (chunks : Nat)
    : (scanLdiskfsBackend t want).DoneSound chunks := by
  intro idx ended later after _
  have chunked (idx : Nat) : Chunked t want table idx :=
    scanLdiskfsScanChunk_table regular walks idx
  refine (chunked later).items.trans (List.flatMap_eq_nil_iff.mpr fun ino member => ?_)
  rw [List.mem_range'_1, chunkStop] at member
  have reached : (idx + 1) * t.chunkWidth ≤ later * t.chunkWidth := Nat.mul_le_mul_right _ after
  exact (chunked idx).behind ended ino (by omega) (by omega)

end Chunks

section Target

variable {host : Host} {dev : ScanDev} {backend : Backend} {nworkers : Nat}
  {stats out : LlapiScanStats} {trace : List SweepLabel} {s : Sweep} {rc : Int}

/-- Where every chunk can be scanned, only a consumer makes a sweep return anything but zero. -/
theorem Sweeping.returns_zero (inv : Sweeping host dev backend nworkers stats trace s)
    (returned : s.main = .returned rc out)
    (scans : ∀ idx rc negative, backend.ends idx ≠ .failed rc negative)
    (unanswered : ∀ value, ¬ Answered trace value)
    : rc = 0 := by
  have staffed := inv.staffed
  unfold Sweep.Staffed at staffed
  rw [returned] at staffed
  obtain ⟨_, _, _, result, _⟩ := staffed
  rw [result, ScanShared.result]
  split
  · rename_i stop
    exact absurd (inv.caused.stop stop) (unanswered _)
  · by_contra error
    obtain ⟨idx, _, negative, failed⟩ := inv.caused.error error
    exact scans idx _ negative failed

/-- A sweep of an ldiskfs target that no consumer stops returns zero, and it has handed over
the records of the inodes of the table, each once, and counted each inode once: also one in a
block that cannot be read, which the chunk before it comes across as well.
-/
theorem ldiskfs_target_exact (t : ScanLdiskfsTgt) (table : SlotTable)
    (regular : t.super.Regular) (walks : t.Walks table)
    (fits : t.super.groupDescCount + t.stGroupsPerChunk.toNat < UInt32.size)
    (chunks : dev.sdTgtInfo.ttChunks = t.ttChunks) (some : 0 < nworkers)
    {bufs : Nat → ScanBuf} (sized : ∀ i, (bufs i).Sized host)
    (run
      : Run
          (SweepStep host dev (scanLdiskfsBackend t (scanWantXattr dev.sdWant)) nworkers stats)
          (.begin dev bufs) trace s)
    (returned : s.main = .returned rc out) (unanswered : ∀ value, ¬ Answered trace value)
    : rc = 0
      ∧ (handedOver trace).Perm
          ((t.items (scanWantXattr dev.sdWant) table).filterMap (itemRecord host dev))
      ∧ out
        = stats
          + ((t.items (scanWantXattr dev.sdWant) table).map (itemCounts host dev)).sum := by
  have sound
      : (scanLdiskfsBackend t (scanWantXattr dev.sdWant)).DoneSound dev.sdTgtInfo.ttChunks :=
    scanLdiskfsBackend_doneSound regular walks _
  have inv := Delivering.run sound some sized run
  have zero : rc = 0 := by
    refine inv.sweeping.returns_zero returned (fun idx => ?_) unanswered
    exact (scanLdiskfsScanChunk_table regular walks idx).scans
  subst zero
  have exact_ := inv.exact returned
  rw [chunks, scanLdiskfsBackend_items regular walks fits] at exact_
  exact ⟨rfl, exact_⟩

/-- Sixteen inodes in one group. -/
def oneGroup : Device.Ext2Super :=
  {
    inodeSize := 256
    sInodesPerGroup := 16
    sInodesCount := 16
    firstInode := 11
    groupDescCount := 1
  }

/-- A file in inode 12 and a block that cannot be read behind it. -/
def oneFileTable : SlotTable := fun ino =>
  if ino = 12 then .readable { iMode := 0o100644, iLinksCount := 1 }
  else if ino = 13 then .unreadable
  else .missing

def oneFileTgt : ScanLdiskfsTgt :=
  {
    super := oneGroup
    inodeMap := fun ino => ino == 12
    gotoBlockgroup := fun _ => true
    calls := fun g => oneFileTable.calls (g * 16 + 1) (16 - g * 16)
    xattrs := fun _ => some fun _ => none
    statIBlocks := fun _ => 0
  }

/-- The file is handed over. -/
theorem ldiskfs_target_oneFile
    : ∃ trace : List SweepLabel,
        (handedOver trace).length = 1
        ∧ (handedOver trace).Perm
            ((oneFileTgt.items (scanWantXattr 0) oneFileTable).filterMap
              (itemRecord oneHost oneDev)) := by
  have regular : oneGroup.Regular := ⟨by decide, by decide⟩
  have walks : oneFileTgt.Walks oneFileTable := ⟨fun _ _ => rfl, fun _ _ => rfl⟩
  have holds : ∃ bare obj,
      (scanLdiskfsBackend oneFileTgt (scanWantXattr 0)).chunk 0 = [.object bare (.some obj)]
      ∧ (objectSink oneHost oneDev obj).2.isSome :=
    ⟨_, _, rfl, by decide +kernel⟩
  obtain ⟨bare, obj, holds, shown⟩ := holds
  obtain ⟨trace, s, record, out, run, returned, handed, unanswered⟩ :=
    oneObject_sweep holds rfl shown
  refine ⟨trace, by rw [handed]; rfl, ?_⟩
  exact (ldiskfs_target_exact oneFileTgt oneFileTable regular walks (by decide) (by decide)
    Nat.zero_lt_one (fun _ => ScanBuf.cleared_sized oneHost) run returned unanswered).2.1

end Target

end LfuScan.ScanDevice
