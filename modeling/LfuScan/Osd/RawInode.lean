import LfuScan.Device.Inode
import LfuScan.Ring.Wire
import LfuScan.Foundations.Posix

/-! The block-parse path of the patched ldiskfs OSD: an object is read straight out of its
inode-table block, without a VFS inode.
-/

namespace LfuScan.Osd

open LfuScan.Lustre LfuScan.Filter LfuScan.Ring LfuScan.Device LfuScan.Foundations

/-- What the OSD reads of the ldiskfs super block. ldiskfs mounts block sizes from 1 KiB to
64 KiB.
-/
structure SuperBlock where
  inodeSize : UInt32
  sBlocksize : UInt32
  sBlocksizeBits : UInt8
  inodesPerGroup : UInt32
  prjQuotaInum : UInt32 := 0
  hugeFile : Bool := false
  project : Bool := false
  largedir : Bool := false
  bits_valid : 10 ≤ sBlocksizeBits ∧ sBlocksizeBits ≤ 16

/-- Blocks of 4 KiB are in that range. -/
theorem SuperBlock.bits_of_4k : (10 : UInt8) ≤ 12 ∧ (12 : UInt8) ≤ 16 := by decide

-----------------------------------------------------------------------------------------
-- Extended attributes in the inode
-----------------------------------------------------------------------------------------

def lfuXattrMagic : UInt32 := 0xEA020000

/-- `sizeof(struct lfu_xattr_entry)`, without the name. -/
def lfuXattrEntrySize : Nat := 16

def lfuXattrIndexTrusted : UInt8 := 4

/-- `LFU_XATTR_LEN`: the size of an entry with its name, padded to four bytes. -/
def lfuXattrLen (nlen : UInt8) : Nat := (nlen.toNat + lfuXattrEntrySize + 3) / 4 * 4

/-- The walk over the entries from `entry` on. `first` is where the entries start and what
the value offsets count from. Every entry takes at least 16 bytes, so a walk over a record of
`isize` bytes ends within `isize` rounds.
-/
def osdRawXattrLoop (raw : Bytes) (isize first : Nat) (index : UInt8) (name : Bytes)
    : Nat → Nat → Except Int (Nat × Nat)
  | 0, _ => .error (-enodata)
  | fuel + 1, entry =>
      if entry + lfuXattrEntrySize > isize then
        .error (-enodata)
      else if lfuLe32 raw entry == 0 then
        -- the terminator
        .error (-enodata)
      else
        let nameLen := byteAt raw entry
        if byteAt raw (entry + 1) != index || nameLen.toNat != name.length
            || entry + lfuXattrLen nameLen > isize
            || (raw.drop (entry + lfuXattrEntrySize)).take name.length != name then
          osdRawXattrLoop raw isize first index name fuel (entry + lfuXattrLen nameLen)
        else if lfuLe32 raw (entry + 4) != 0 then
          -- the value is in an inode of its own
          .error (-eopnotsupp)
        else
          let voffs := (lfuLe16 raw (entry + 2)).toNat
          let vsize := (lfuLe32 raw (entry + 8)).toNat
          if first + voffs + vsize > isize then .error (-eopnotsupp)
          else .ok (first + voffs, vsize)

/-- Find one attribute in the area after the inode proper: where its value starts in the
record, and its length.
-/
def osdRawXattr (sb : SuperBlock) (raw : Bytes) (index : UInt8) (name : Bytes)
    : Except Int (Nat × Nat) :=
  let isize := sb.inodeSize.toNat
  if isize ≤ goodOldInodeSize then
    .error (-enodata)
  else
    let extra := lfuLe16 raw goodOldInodeSize
    if extra &&& 3 != 0 || goodOldInodeSize + extra.toNat + 4 > isize then
      .error (-eopnotsupp)
    else
      let ibody := goodOldInodeSize + extra.toNat
      if lfuLe32 raw ibody != lfuXattrMagic then
        .error (-enodata)
      else
        osdRawXattrLoop raw isize (ibody + 4) index name isize (ibody + 4)

/-- The name "lma". -/
def lmaName : Bytes := [0x6c, 0x6d, 0x61]

def osdRawLma (sb : SuperBlock) (raw : Bytes) : Except Int LustreMdtAttrs :=
  match osdRawXattr sb raw lfuXattrIndexTrusted lmaName with
  | .error rc => .error rc
  | .ok (off, vlen) =>
      if vlen < lustreMdtAttrsSize then
        .error (-eopnotsupp)
      else
        let lma : LustreMdtAttrs :=
          {
            lmaCompat := lfuLe32 raw off
            lmaIncompat := lfuLe32 raw (off + 4)
            lmaSelfFid :=
              {
                fSeq := lfuLe64 raw (off + 8)
                fOid := lfuLe32 raw (off + 16)
                fVer := lfuLe32 raw (off + 20)
              }
          }
        if lma.lmaIncompat &&& ~~~lmaIncompatSupp != 0 then .error (-eopnotsupp) else .ok lma

/-- The bits of `la_valid` both paths set: mode, nlink, uid, gid, size, blocks, the four
times, projid and flags.
-/
def laValidAttr : UInt64 := 0x886ff

def ldiskfsHugeFileFl : UInt32 := 0x00040000

/-- The flag bits Lustre shows users. -/
def lustreFlUserVisible : UInt32 := 0x709b5cfe

def lmaToLustreFlags (lmaFlags : UInt32) : UInt32 :=
  (if lmaFlags &&& lmaiOrphan != 0 then lustreOrphanFl else 0)
    ||| (if lmaFlags &&& lmaiEncrypt != 0 then lustreEncryptFl else 0)

/-- A field of the extension, if the extension reaches its end (`LFU_HAS_EXTRA`). -/
def extraField (inode : Ext2InodeLarge) (fieldEnd : Nat) (value : UInt32) : Option UInt32 :=
  if inode.reaches fieldEnd then some value else none

/-- A time the raw path reports: the seconds, with the two epoch bits or-ed in above them. -/
def rawTime (seconds : UInt32) : Option UInt32 → Int64
  | none => seconds.toUInt64.toInt64
  | some extra => (seconds.toUInt64 ||| (extra &&& 3).toUInt64 <<< 32).toInt64

/-- `i_blocks` in 512-byte units: the high half counts only with the huge_file feature, and
there HUGE_FILE_FL says that the value counts file system blocks.
-/
def inodeBlocks (sb : SuperBlock) (inode : Ext2InodeLarge) : UInt64 :=
  let blocks := inode.iBlocks.toUInt64
  if sb.hugeFile then
    let blocks := blocks ||| inode.lIBlocksHi.toUInt64 <<< 32
    if inode.iFlags &&& ldiskfsHugeFileFl != 0 then
      blocks <<< (sb.sBlocksizeBits.toUInt64 - 9)
    else
      blocks
  else
    blocks

def osdRawAttr (sb : SuperBlock) (inode : Ext2InodeLarge) (lmaIncompat : UInt32) : LuAttr :=
  {
    laValid := laValidAttr
    laMode := inode.iMode.toUInt32
    laNlink := inode.iLinksCount.toUInt32
    laUid := joinId inode.iUid inode.lIUidHigh
    laGid := joinId inode.iGid inode.lIGidHigh
    laSize := inode.iSize.toUInt64 ||| inode.iSizeHigh.toUInt64 <<< 32
    laBlocks := inodeBlocks sb inode
    laAtime := rawTime inode.iAtime (extraField inode atimeExtraEnd inode.iAtimeExtra)
    laMtime := rawTime inode.iMtime (extraField inode mtimeExtraEnd inode.iMtimeExtra)
    laCtime := rawTime inode.iCtime (extraField inode ctimeExtraEnd inode.iCtimeExtra)
    laBtime :=
      rawTime ((extraField inode crtimeEnd inode.iCrtime).getD 0)
        (extraField inode crtimeExtraEnd inode.iCrtimeExtra)
    laProjid :=
      if sb.project then (extraField inode projidEnd inode.iProjid).getD 0 else 0
    laFlags := (inode.iFlags &&& lustreFlUserVisible) ||| lmaToLustreFlags lmaIncompat
  }

/-- What the raw path makes of an inode: an object, something to skip
(`SCRUB_NEXT_CONTINUE`), or an error; -EAGAIN sends the caller to the iget path.
-/
inductive RawObject
  | found (fid : LuFid) (la : LuAttr)
  | skip
  | failed (rc : Int)
deriving DecidableEq

/-- The part of `osd_iit_iget_raw` after the inode's record is at hand. The scrub's own
bookkeeping is left out.
-/
def osdRawObject (sb : SuperBlock) (raw : Bytes) : RawObject :=
  let inode := Ext2InodeLarge.ofRecord raw
  if inode.iLinksCount == 0 && (inode.iMode == 0 || inode.iDtime == 0) then
    .skip
  else
    match osdRawLma sb raw with
    | .error _ => .failed (-eagain)
    | .ok lma =>
        if lma.lmaCompat &&& lmacNotInOi != 0 || lma.lmaIncompat &&& lmaiAgent != 0 then
          .skip
        else
          .found lma.lmaSelfFid (osdRawAttr sb inode lma.lmaIncompat)

/-- The device: its super block, the inodes that are not objects, and the blocks as
`sb_bread` returns them.
-/
structure OsdDevice where
  sb : SuperBlock
  rootIno : UInt32
  isRemoteParentIno : UInt32 → Bool
  sbBread : UInt64 → Option Bytes

/-- The private iterator's place in the inode table, and the block it holds. -/
structure OsdOtableIt where
  gbase : UInt32
  itable : UInt64
  bpBh : Option Bytes := none
  bpBlk : UInt64 := 0

/-- The iterator holding block `blk`, read if it is another one. -/
def OsdOtableIt.hold (dev : OsdDevice) (it : OsdOtableIt) (blk : UInt64)
    : Option OsdOtableIt :=
  if it.bpBlk != blk then
    (dev.sbBread blk).map fun bh => { it with bpBh := some bh, bpBlk := blk }
  else
    some it

/-- The record of inode `pos` in the block the iterator holds. -/
def OsdOtableIt.inodeRecord (sb : SuperBlock) (it : OsdOtableIt) (pos : UInt32) : Bytes :=
  let ipb := sb.sBlocksize / sb.inodeSize
  let off := ((pos - it.gbase) % ipb) * sb.inodeSize
  ((it.bpBh.getD []).drop off.toNat).take sb.inodeSize.toNat

def osdIitIgetRaw (dev : OsdDevice) (it : OsdOtableIt) (pos : UInt32)
    : RawObject × OsdOtableIt :=
  let ipb := dev.sb.sBlocksize / dev.sb.inodeSize
  let index := pos - it.gbase
  if ipb == 0 then
    (.failed (-eagain), it)
  else if pos == dev.rootIno || dev.isRemoteParentIno pos then
    (.skip, it)
  else if dev.sb.project && pos == dev.sb.prjQuotaInum then
    (.skip, it)
  else if pos < it.gbase || index ≥ dev.sb.inodesPerGroup then
    (.failed (-eagain), it)
  else
    match it.hold dev (it.itable + (index / ipb).toUInt64) with
    | none => (.failed (-eio), it)
    | some it => (osdRawObject dev.sb (it.inodeRecord dev.sb pos), it)

end LfuScan.Osd
