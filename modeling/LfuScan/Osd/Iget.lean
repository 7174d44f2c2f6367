import LfuScan.Osd.RawInode
import Mathlib.Data.Nat.Bitwise
import Mathlib.Data.UInt

/-! The iget path of the OSD, and when the raw path reports the same attributes. -/

namespace LfuScan.Osd

open LfuScan.Lustre LfuScan.Filter LfuScan.Ring LfuScan.Device

-----------------------------------------------------------------------------------------
-- The VFS inode
-----------------------------------------------------------------------------------------

/-- The fields of the VFS inode, and of its ldiskfs part, that `osd_iit_iget` reads. -/
structure VfsInode where
  iMode : UInt16
  iNlink : UInt32
  iUid : UInt32
  iGid : UInt32
  iSize : UInt64
  iBlocks : UInt64
  iAtime : Int64
  iMtime : Int64
  iCtime : Int64
  iCrtime : Int64
  iProjid : UInt32
  iFlags : UInt32
  ldiskfsFlags : UInt32

/-- A time as ldiskfs decodes it: signed seconds, plus the epoch bits above them. -/
def igetTime (seconds : UInt32) : Option UInt32 → Int64
  | none => seconds.toInt32.toInt64
  | some extra => seconds.toInt32.toInt64 + ((extra &&& 3).toUInt64 <<< 32).toInt64

/-- The high half of the size counts for regular files, or with the largedir feature. -/
def ldiskfsIsize (sb : SuperBlock) (inode : Ext2InodeLarge) : UInt64 :=
  if sb.largedir || inode.iMode &&& lfuSIfmt == lfuSIfreg then
    inode.iSize.toUInt64 ||| inode.iSizeHigh.toUInt64 <<< 32
  else
    inode.iSize.toUInt64

/-- The two functions of ldiskfs and llite that `osd_iit_iget` calls. `ldiskfs_iget` may refuse
an inode, as it does one whose checksum is wrong.
-/
structure IgetCalls where
  ldiskfsIget : SuperBlock → UInt32 → Bytes → Option VfsInode
  llInodeToExtFlags : UInt32 → UInt32

/-- The VFS inode of a record: mode, links and owners as they are, the size, the times, the
block count and the project by the rules of ldiskfs, and flags of which `ll_inode_to_ext_flags`
shows no bit that is not set, and visible, on the disk.
-/
structure Decoded (llInodeToExtFlags : UInt32 → UInt32) (sb : SuperBlock)
    (inode : Ext2InodeLarge) (vfs : VfsInode)
    : Prop where
  mode : vfs.iMode = inode.iMode
  nlink : vfs.iNlink = inode.iLinksCount.toUInt32
  uid : vfs.iUid = joinId inode.iUid inode.lIUidHigh
  gid : vfs.iGid = joinId inode.iGid inode.lIGidHigh
  size : vfs.iSize = ldiskfsIsize sb inode
  blocks : vfs.iBlocks = inodeBlocks sb inode
  atime : vfs.iAtime = igetTime inode.iAtime (extraField inode atimeExtraEnd inode.iAtimeExtra)
  mtime : vfs.iMtime = igetTime inode.iMtime (extraField inode mtimeExtraEnd inode.iMtimeExtra)
  ctime : vfs.iCtime = igetTime inode.iCtime (extraField inode ctimeExtraEnd inode.iCtimeExtra)
  crtime
    : vfs.iCrtime
      = igetTime ((extraField inode crtimeEnd inode.iCrtime).getD 0)
          (extraField inode crtimeExtraEnd inode.iCrtimeExtra)
  projid
    : vfs.iProjid
      = if sb.project then (extraField inode projidEnd inode.iProjid).getD 0 else 0
  flags : vfs.ldiskfsFlags = inode.iFlags
  visible
    : llInodeToExtFlags vfs.iFlags ||| (inode.iFlags &&& lustreFlUserVisible)
      = inode.iFlags &&& lustreFlUserVisible

/-- What is assumed of ldiskfs: an inode it does not refuse is decoded. -/
def IgetCalls.Decodes (k : IgetCalls) (sb : SuperBlock) : Prop :=
  ∀ pos raw vfs, k.ldiskfsIget sb pos raw = some vfs
    → Decoded k.llInodeToExtFlags sb (.ofRecord raw) vfs

/-- The attributes `osd_iit_iget` reports of object `fid`. `lma` is what the buffer for the
LMA holds; it is this object's if the FID in it is.
-/
def osdIitIgetAttr (k : IgetCalls) (inode : VfsInode) (lma : LustreMdtAttrs) (fid : LuFid)
    : LuAttr :=
  let flags := k.llInodeToExtFlags inode.iFlags ||| (inode.ldiskfsFlags &&& lustreFlUserVisible)
  {
    laValid := laValidAttr
    laMode := inode.iMode.toUInt32
    laNlink := inode.iNlink
    laUid := inode.iUid
    laGid := inode.iGid
    laSize := inode.iSize
    laBlocks := inode.iBlocks
    laAtime := inode.iAtime
    laMtime := inode.iMtime
    laCtime := inode.iCtime
    laBtime := inode.iCrtime
    laProjid := inode.iProjid
    laFlags :=
      if lma.lmaSelfFid = fid then flags ||| lmaToLustreFlags lma.lmaIncompat else flags
  }

/-- What `osd_iit_iget` reports of inode `pos`, whose record is `raw`: nothing if ldiskfs
refuses it.
-/
def osdIitIget (k : IgetCalls) (sb : SuperBlock) (pos : UInt32) (raw : Bytes)
    (lma : LustreMdtAttrs) (fid : LuFid)
    : Option LuAttr :=
  (k.ldiskfsIget sb pos raw).map (osdIitIgetAttr k · lma fid)

theorem toInt_toInt64 {value : UInt64} (small : value.toNat < 2 ^ 63)
    : value.toInt64.toInt = value.toNat :=
  BitVec.toInt_eq_toNat_of_lt (by change 2 * value.toNat < 2 ^ 64; omega)

theorem toInt_toInt32 (value : UInt32)
    : value.toInt32.toInt
      = if value.toNat < 2 ^ 31 then (value.toNat : Int) else value.toNat - 2 ^ 32 := by
  have signed := BitVec.toInt_eq_toNat_cond value.toBitVec
  change value.toInt32.toInt = if 2 * value.toNat < 2 ^ 32 then _ else _ at signed
  rw [signed]
  split <;> split <;> first | rfl | omega

/-- A word joined to another one above it. -/
theorem join_toNat (low : UInt32) {high : UInt64} {count : Nat}
    (above : high.toNat = count * 2 ^ 32)
    : (low.toUInt64 ||| high).toNat = low.toNat + count * 2 ^ 32 := by
  rw [UInt64.toNat_or, above, UInt32.toNat_toUInt64, ← Nat.shiftLeft_eq, Nat.or_comm,
    ← Nat.shiftLeft_add_eq_or_of_lt low.toNat_lt, Nat.add_comm]

theorem epoch_toNat (extra : UInt32)
    : ((extra &&& 3).toUInt64 <<< 32).toNat = (extra.toNat % 4) * 2 ^ 32 := by
  have low : (extra &&& 3).toNat = extra.toNat % 4 := by
    rw [UInt32.toNat_and]
    exact Nat.and_two_pow_sub_one_eq_mod extra.toNat 2
  rw [UInt64.toNat_shiftLeft, UInt32.toNat_toUInt64, low]
  change (extra.toNat % 4) <<< 32 % 2 ^ 64 = _
  rw [Nat.shiftLeft_eq]
  omega

/-- Both paths put the same epoch above the seconds, and differ in the sign of these. -/
theorem rawTime_eq_igetTime (seconds : UInt32) (extra : Option UInt32)
    : rawTime seconds extra = igetTime seconds extra ↔ seconds.toNat < 2 ^ 31 := by
  have bound := seconds.toNat_lt
  have signed := toInt_toInt32 seconds
  rw [← Int64.toInt_inj]
  cases extra with
  | none =>
      rw [rawTime, igetTime, Int32.toInt_toInt64, signed,
        toInt_toInt64 (by rw [UInt32.toNat_toUInt64]; omega), UInt32.toNat_toUInt64]
      split <;> omega
  | some extra =>
      have epoch := epoch_toNat extra
      have joined := join_toNat seconds epoch
      rw [rawTime, igetTime, toInt_toInt64 (by rw [joined]; omega), Int64.toInt_add,
        Int32.toInt_toInt64, toInt_toInt64 (by rw [epoch]; omega), joined, epoch, signed,
        Int.bmod_eq_of_le (by split <;> omega) (by split <;> omega)]
      split <;> omega

theorem join_eq_low_iff (low high : UInt32)
    : low.toUInt64 ||| high.toUInt64 <<< 32 = low.toUInt64 ↔ high = 0 := by
  have above : (high.toUInt64 <<< 32).toNat = high.toNat * 2 ^ 32 := by
    rw [UInt64.toNat_shiftLeft, UInt32.toNat_toUInt64]
    change high.toNat <<< 32 % 2 ^ 64 = _
    have bound := high.toNat_lt
    rw [Nat.shiftLeft_eq]
    omega
  rw [← UInt64.toNat_inj, join_toNat low above, UInt32.toNat_toUInt64, ← UInt32.toNat_inj]
  change _ ↔ high.toNat = 0
  omega

-----------------------------------------------------------------------------------------
-- The two paths
-----------------------------------------------------------------------------------------

/-- The inodes the raw path reports as the iget path does: no time before 1970 or with the
sign bit of its seconds set, and no high half of a size that ldiskfs would not use.
-/
structure RawExact (sb : SuperBlock) (inode : Ext2InodeLarge) : Prop where
  atime : inode.iAtime.toNat < 2 ^ 31
  mtime : inode.iMtime.toNat < 2 ^ 31
  ctime : inode.iCtime.toNat < 2 ^ 31
  crtime : inode.reaches crtimeEnd = true → inode.iCrtime.toNat < 2 ^ 31
  size : sb.largedir = true ∨ inode.iMode &&& lfuSIfmt = lfuSIfreg ∨ inode.iSizeHigh = 0

theorem rawSize_eq_iff (sb : SuperBlock) (inode : Ext2InodeLarge)
    : inode.iSize.toUInt64 ||| inode.iSizeHigh.toUInt64 <<< 32 = ldiskfsIsize sb inode
      ↔ sb.largedir = true ∨ inode.iMode &&& lfuSIfmt = lfuSIfreg ∨ inode.iSizeHigh = 0 := by
  unfold ldiskfsIsize
  rw [← or_assoc]
  split
  · rename_i whole
    have whole : sb.largedir = true ∨ inode.iMode &&& lfuSIfmt = lfuSIfreg := by
      simpa using whole
    simp only [whole, true_or]
  · rename_i low
    have low : ¬(sb.largedir = true ∨ inode.iMode &&& lfuSIfmt = lfuSIfreg) := by
      simpa using low
    rw [join_eq_low_iff]
    simp only [low, false_or]

theorem crtime_signed_iff (inode : Ext2InodeLarge)
    : ((extraField inode crtimeEnd inode.iCrtime).getD 0).toNat < 2 ^ 31
      ↔ (inode.reaches crtimeEnd = true → inode.iCrtime.toNat < 2 ^ 31) := by
  unfold extraField
  split
  · rename_i reached
    simp [reached]
  · rename_i short
    simp [short]

/-- Of the attributes only the four times and the size can differ. -/
theorem osdRawAttr_eq_iff {k : IgetCalls} {sb : SuperBlock} {inode : Ext2InodeLarge}
    {vfs : VfsInode} (decoded : Decoded k.llInodeToExtFlags sb inode vfs)
    (lma : LustreMdtAttrs)
    : osdIitIgetAttr k vfs lma lma.lmaSelfFid = osdRawAttr sb inode lma.lmaIncompat
      ↔ RawExact sb inode := by
  have flags := decoded.visible
  have fields
      : osdIitIgetAttr k vfs lma lma.lmaSelfFid = osdRawAttr sb inode lma.lmaIncompat
        ↔ (ldiskfsIsize sb inode = inode.iSize.toUInt64 ||| inode.iSizeHigh.toUInt64 <<< 32)
          ∧ vfs.iMtime = (osdRawAttr sb inode lma.lmaIncompat).laMtime
          ∧ vfs.iAtime = (osdRawAttr sb inode lma.lmaIncompat).laAtime
          ∧ vfs.iCtime = (osdRawAttr sb inode lma.lmaIncompat).laCtime
          ∧ vfs.iCrtime = (osdRawAttr sb inode lma.lmaIncompat).laBtime := by
    simp only [osdRawAttr, osdIitIgetAttr, LuAttr.mk.injEq, decoded.mode, decoded.nlink,
      decoded.uid, decoded.gid, decoded.size, decoded.blocks, decoded.projid, decoded.flags, flags,
      if_true, true_and, and_true]
  rw [fields, decoded.mtime, decoded.atime, decoded.ctime, decoded.crtime]
  simp only [osdRawAttr, eq_comm (b := rawTime _ _), rawTime_eq_igetTime, crtime_signed_iff,
    eq_comm (a := ldiskfsIsize _ _), rawSize_eq_iff]
  constructor
  · rintro ⟨size, mtime, atime, ctime, crtime⟩
    exact ⟨atime, mtime, ctime, crtime, size⟩
  · rintro ⟨atime, mtime, ctime, crtime, size⟩
    exact ⟨size, mtime, atime, ctime, crtime⟩

/-- What an object of the raw path is made of. -/
theorem osdRawObject_found {sb : SuperBlock} {raw : Bytes} {fid : LuFid} {la : LuAttr}
    (found : osdRawObject sb raw = .found fid la)
    : ∃ lma, osdRawLma sb raw = .ok lma ∧ lma.lmaSelfFid = fid
        ∧ la = osdRawAttr sb (.ofRecord raw) lma.lmaIncompat := by
  unfold osdRawObject at found
  simp only at found
  split at found
  · cases found
  · split at found
    · cases found
    · rename_i lma read
      split at found
      · cases found
      · cases found
        exact ⟨lma, read, rfl, rfl⟩

theorem osdIitIgetRaw_found {dev : OsdDevice} {it it' : OsdOtableIt} {pos : UInt32}
    {fid : LuFid} {la : LuAttr} (found : osdIitIgetRaw dev it pos = (.found fid la, it'))
    : osdRawObject dev.sb (it'.inodeRecord dev.sb pos) = .found fid la := by
  unfold osdIitIgetRaw at found
  simp only at found
  split at found
  · cases found
  · split at found
    · cases found
    · split at found
      · cases found
      · split at found
        · cases found
        · split at found
          · cases found
          · injection found with object same
            rw [← same]
            exact object

/-- The raw path reports what the iget path reports of the same inode exactly for the inodes
of `RawExact` that ldiskfs does not refuse.
-/
theorem raw_attr_eq_iget_iff {k : IgetCalls} {dev : OsdDevice} (decodes : k.Decodes dev.sb)
    {it it' : OsdOtableIt} {pos : UInt32} {fid : LuFid} {la : LuAttr}
    (found : osdIitIgetRaw dev it pos = (.found fid la, it'))
    : ∃ lma, osdRawLma dev.sb (it'.inodeRecord dev.sb pos) = .ok lma
        ∧ lma.lmaSelfFid = fid
        ∧ (osdIitIget k dev.sb pos (it'.inodeRecord dev.sb pos) lma fid = some la
            ↔ (k.ldiskfsIget dev.sb pos (it'.inodeRecord dev.sb pos)).isSome
              ∧ RawExact dev.sb (.ofRecord (it'.inodeRecord dev.sb pos))) := by
  obtain ⟨lma, read, rfl, rfl⟩ := osdRawObject_found (osdIitIgetRaw_found found)
  refine ⟨lma, read, rfl, ?_⟩
  unfold osdIitIget
  cases got : k.ldiskfsIget dev.sb pos (it'.inodeRecord dev.sb pos) with
  | none => simp
  | some vfs =>
      rw [Option.map_some, Option.some_inj, osdRawAttr_eq_iff (decodes pos _ vfs got) lma]
      simp

def le32Bytes (word : UInt32) : Bytes :=
  [word.toUInt8, (word >>> 8).toUInt8, (word >>> 16).toUInt8, (word >>> 24).toUInt8]

/-- The record of a regular file with its LMA in the inode: modification time, its extra word
and the FID [0x200000400:0x1:0x0] are the only fields set besides mode and links.
-/
def sampleRecord (mtime mtimeExtra : UInt32) : Bytes :=
  [0xa4, 0x81] ++ List.replicate 14 0 ++ le32Bytes mtime ++ List.replicate 6 0 ++ [1, 0]
    ++ List.replicate 100 0 ++ [0x20, 0] ++ List.replicate 6 0 ++ le32Bytes mtimeExtra
    ++ List.replicate 20 0 ++ [0, 0, 2, 0xea]
    ++ [3, 4, 0x44, 0, 0, 0, 0, 0, 24, 0, 0, 0, 0, 0, 0, 0, 0x6c, 0x6d, 0x61, 0]
    ++ List.replicate 56 0 ++ [0, 4, 0, 0, 2, 0, 0, 0, 1, 0, 0, 0, 0, 0, 0, 0]

def sampleDevice (mtime mtimeExtra : UInt32) : OsdDevice where
  sb :=
    {
      inodeSize := 256
      sBlocksize := 4096
      sBlocksizeBits := 12
      inodesPerGroup := 8192
      bits_valid := by decide
    }
  rootIno := 2
  isRemoteParentIno := fun _ => false
  sbBread := fun _ => some (sampleRecord mtime mtimeExtra ++ List.replicate 3840 0)

def sampleIt : OsdOtableIt := { gbase := 1, itable := 100 }

/-- An ldiskfs that refuses no inode but those without links. -/
def sampleCalls : IgetCalls where
  ldiskfsIget sb _ raw :=
    let inode := Ext2InodeLarge.ofRecord raw
    if inode.iLinksCount ≠ 0 then
      some {
        iMode := inode.iMode
        iNlink := inode.iLinksCount.toUInt32
        iUid := joinId inode.iUid inode.lIUidHigh
        iGid := joinId inode.iGid inode.lIGidHigh
        iSize := ldiskfsIsize sb inode
        iBlocks := inodeBlocks sb inode
        iAtime := igetTime inode.iAtime (extraField inode atimeExtraEnd inode.iAtimeExtra)
        iMtime := igetTime inode.iMtime (extraField inode mtimeExtraEnd inode.iMtimeExtra)
        iCtime := igetTime inode.iCtime (extraField inode ctimeExtraEnd inode.iCtimeExtra)
        iCrtime :=
          igetTime ((extraField inode crtimeEnd inode.iCrtime).getD 0)
            (extraField inode crtimeExtraEnd inode.iCrtimeExtra)
        iProjid := if sb.project then (extraField inode projidEnd inode.iProjid).getD 0 else 0
        iFlags := 0
        ldiskfsFlags := inode.iFlags
      }
    else
      none
  llInodeToExtFlags iflags := iflags

theorem sampleCalls_decodes (sb : SuperBlock) : sampleCalls.Decodes sb := by
  intro pos raw vfs got
  simp only [sampleCalls] at got
  split at got
  · cases got
    exact ⟨rfl, rfl, rfl, rfl, rfl, rfl, rfl, rfl, rfl, rfl, rfl, rfl, UInt32.zero_or⟩
  · cases got

/-- The first second past the range of a signed 32-bit time, as ldiskfs writes it: the iget
path reads it back, the raw path is one epoch late.
-/
theorem raw_time_differs
    : sampleCalls.Decodes (sampleDevice 0x80000000 1).sb
      ∧ ∃ fid la lma it',
          osdIitIgetRaw (sampleDevice 0x80000000 1) sampleIt 1 = (.found fid la, it')
          ∧ osdRawLma (sampleDevice 0x80000000 1).sb
              (it'.inodeRecord (sampleDevice 0x80000000 1).sb 1)
            = .ok lma
          ∧ la.laMtime = 2 ^ 31 + 2 ^ 32
          ∧ (osdIitIget sampleCalls (sampleDevice 0x80000000 1).sb 1
                (it'.inodeRecord (sampleDevice 0x80000000 1).sb 1) lma fid).map LuAttr.laMtime
            = some (2 ^ 31) := by
  exact ⟨sampleCalls_decodes _, _, _, _, _, rfl, rfl, by decide, by decide⟩

/-- A file of the present is read alike. -/
theorem raw_attr_eq_iget_iff_present
    : ∃ fid la it',
        osdIitIgetRaw (sampleDevice 1700000000 0) sampleIt 1 = (.found fid la, it')
        ∧ ∃ lma,
            osdIitIget sampleCalls (sampleDevice 1700000000 0).sb 1
                (it'.inodeRecord (sampleDevice 1700000000 0).sb 1) lma fid
              = some la := by
  have found
      : osdIitIgetRaw (sampleDevice 1700000000 0) sampleIt 1 = (.found _ _, _) :=
    rfl
  obtain ⟨lma, _, _, same⟩ := raw_attr_eq_iget_iff (sampleCalls_decodes _) found
  exact ⟨_, _, _, found, lma,
    same.mpr ⟨by decide, by decide, by decide, by decide, by decide, by decide⟩⟩

end LfuScan.Osd
