import LfuScan.Filter.Eval

/-! The on-disk inode of an ldiskfs target, and what the device scanner takes from it. -/

namespace LfuScan.Device

open LfuScan.Lustre LfuScan.Filter

/-- The fields of `struct ext2_inode_large` the scanners read, in host order. The part after
`iExtraIsize` is on disk only in a large inode, and valid only as far as `iExtraIsize` says.
-/
structure Ext2InodeLarge where
  iMode : UInt16 := 0
  iUid : UInt16 := 0
  iSize : UInt32 := 0
  iAtime : UInt32 := 0
  iCtime : UInt32 := 0
  iMtime : UInt32 := 0
  iDtime : UInt32 := 0
  iGid : UInt16 := 0
  iLinksCount : UInt16 := 0
  iBlocks : UInt32 := 0
  iFlags : UInt32 := 0
  iFileAcl : UInt32 := 0
  iSizeHigh : UInt32 := 0
  lIBlocksHi : UInt16 := 0
  lIUidHigh : UInt16 := 0
  lIGidHigh : UInt16 := 0
  iExtraIsize : UInt16 := 0
  iCtimeExtra : UInt32 := 0
  iMtimeExtra : UInt32 := 0
  iAtimeExtra : UInt32 := 0
  iCrtime : UInt32 := 0
  iCrtimeExtra : UInt32 := 0
  iProjid : UInt32 := 0
deriving DecidableEq, Repr, Inhabited

/-- `struct lustre_mdt_attrs`. -/
structure LustreMdtAttrs where
  lmaCompat : UInt32 := 0
  lmaIncompat : UInt32 := 0
  lmaSelfFid : LuFid := {}
deriving DecidableEq, Repr, Inhabited

def lustreMdtAttrsSize : Nat := 24

/-- `EXT2_GOOD_OLD_INODE_SIZE`. -/
def goodOldInodeSize : Nat := 128

/-- The inode as it lies in its record on the disk. -/
def Ext2InodeLarge.ofRecord (raw : Bytes) : Ext2InodeLarge :=
  {
    iMode := lfuLe16 raw 0
    iUid := lfuLe16 raw 2
    iSize := lfuLe32 raw 4
    iAtime := lfuLe32 raw 8
    iCtime := lfuLe32 raw 12
    iMtime := lfuLe32 raw 16
    iDtime := lfuLe32 raw 20
    iGid := lfuLe16 raw 24
    iLinksCount := lfuLe16 raw 26
    iBlocks := lfuLe32 raw 28
    iFlags := lfuLe32 raw 32
    iFileAcl := lfuLe32 raw 104
    iSizeHigh := lfuLe32 raw 108
    lIBlocksHi := lfuLe16 raw 116
    lIUidHigh := lfuLe16 raw 120
    lIGidHigh := lfuLe16 raw 122
    iExtraIsize := lfuLe16 raw 128
    iCtimeExtra := lfuLe32 raw 132
    iMtimeExtra := lfuLe32 raw 136
    iAtimeExtra := lfuLe32 raw 140
    iCrtime := lfuLe32 raw 144
    iCrtimeExtra := lfuLe32 raw 148
    iProjid := lfuLe32 raw 156
  }

/-- Where the fields of the extension end, in bytes from the start of the inode. -/
def ctimeExtraEnd : Nat := 136
def mtimeExtraEnd : Nat := 140
def atimeExtraEnd : Nat := 144
def crtimeEnd : Nat := 148
def crtimeExtraEnd : Nat := 152
def projidEnd : Nat := 160

/-- The inode reaches a field of the extension that ends at `fieldEnd`. -/
def Ext2InodeLarge.reaches (inode : Ext2InodeLarge) (fieldEnd : Nat) : Bool :=
  goodOldInodeSize + inode.iExtraIsize.toNat ≥ fieldEnd

/-- Two halves of a 32-bit id. -/
def joinId (low high : UInt16) : UInt32 := low.toUInt32 ||| high.toUInt32 <<< 16

/-- The file types an inode may have: socket, link, regular, block, directory, character,
fifo.
-/
def fileTypes : List UInt16 :=
  [0o140000, 0o120000, 0o100000, 0o060000, 0o040000, 0o020000, 0o010000]

def lfuInodePlausible (inode : Ext2InodeLarge) (inodeSize : Nat) : Bool :=
  if inode.iLinksCount == 0 then
    false
  else if !fileTypes.contains (inode.iMode &&& lfuSIfmt) then
    false
  else if inodeSize > goodOldInodeSize then
    if inode.iExtraIsize.toNat > inodeSize - goodOldInodeSize then
      false
    else
      !(inode.iExtraIsize != 0 && inode.iExtraIsize.toNat < 2)
  else
    true

/-- Tier 0: everything that is in the inode buffer. -/
def lfuExtractTier0 (inode : Ext2InodeLarge) (ino : UInt32) (inodeSize : Nat) : LfuRec :=
  let large := inodeSize > goodOldInodeSize
  {
    id := ino.toUInt64
    mode := inode.iMode
    nlink := inode.iLinksCount.toUInt32
    uid := joinId inode.iUid inode.lIUidHigh
    gid := joinId inode.iGid inode.lIGidHigh
    size := inode.iSize.toUInt64 ||| inode.iSizeHigh.toUInt64 <<< 32
    blocks := inode.iBlocks.toUInt64 ||| inode.lIBlocksHi.toUInt64 <<< 32
    atime := inode.iAtime
    mtime := inode.iMtime
    ctime := inode.iCtime
    flags := inode.iFlags
    crtime := if large && inode.reaches crtimeEnd then inode.iCrtime else 0
    projid := if large && inode.reaches projidEnd then inode.iProjid else 0
    hasExtEa := inode.iFileAcl != 0
  }

end LfuScan.Device
