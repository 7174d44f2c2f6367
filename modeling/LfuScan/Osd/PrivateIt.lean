import LfuScan.Foundations.Memory
import LfuScan.Osd.Readahead

/-! The private iterator of the ldiskfs OSD: the walk of `osd_otable_it_next_private` over the
inode tables, and `osd_otable_it_xattr`, which serves an attribute of the current object from
the block the walk still holds.

Parts of the kernel the walk calls are parameters of each call: which blocks fail to be read,
what the inode bitmap of a group holds, which inode of a group comes next, and what the iget
path finds.
-/

namespace LfuScan.Osd

open LfuScan.Foundations LfuScan.Lustre LfuScan.Filter LfuScan.Ring LfuScan.Device

/-- What the walk reads of a group descriptor. -/
structure LdiskfsGroupDesc where
  bgInodeTableLo : UInt32
  bgInodeTableHi : UInt32 := 0
  /-- `LDISKFS_BG_INODE_UNINIT`. -/
  inodeUninit : Bool := false
  /-- `ldiskfs_itable_unused_count`. -/
  itableUnused : UInt32 := 0

/-- The mounted file system. Its inodes are numbered in 32 bits. -/
structure Ldiskfs where
  sb : SuperBlock
  descSize : UInt16
  sInodesCount : UInt32
  groups : List LdiskfsGroupDesc
  blocks : UInt64 → Bytes
  rootIno : UInt32
  isRemoteParentIno : UInt32 → Bool
  inodes_fit : groups.length * sb.inodesPerGroup.toNat < 2 ^ 32

namespace Ldiskfs

/-- The inodes a group has, as a number. -/
abbrev perGroup (fs : Ldiskfs) : Nat := fs.sb.inodesPerGroup.toNat

/-- `LDISKFS_MIN_DESC_SIZE_64BIT`. -/
def minDescSize64bit : UInt16 := 64

def osdGroupItable (fs : Ldiskfs) (desc : LdiskfsGroupDesc) : UInt64 :=
  let itable := desc.bgInodeTableLo.toUInt64
  if fs.descSize ≥ minDescSize64bit then
    itable ||| desc.bgInodeTableHi.toUInt64 <<< 32
  else
    itable

/-- The first inode of a group, in the 32 bits of `gbase`. -/
def gbase (fs : Ldiskfs) (bg : Nat) : UInt32 := UInt32.ofNat (1 + bg * fs.perGroup)

/-- The record of an inode: where ldiskfs keeps it, and what is there. -/
def inodeRecord (fs : Ldiskfs) (ino : UInt32) : Option Bytes :=
  let index := (ino.toNat - 1) % fs.perGroup
  let isize := fs.sb.inodeSize.toNat
  let ipb := fs.sb.sBlocksize.toNat / isize
  fs.groups[(ino.toNat - 1) / fs.perGroup]?.map fun desc =>
    window (fs.blocks (fs.osdGroupItable desc + UInt64.ofNat (index / ipb)))
      (index % ipb * isize) isize

end Ldiskfs

/-- What `osd_iit_iget` answers. An object it returns has its number written into the
record; for one it passes by or fails on that may have been done too.
-/
inductive IgetResult
  | found (fid : LuFid) (la : LuAttr)
  | skip (wroteLid : Bool)
  | failed (rc : Int) (wroteLid : Bool)

/-- `__osd_xattr_get` on a live inode: for a name and the size of a buffer the return value,
and the bytes written.
-/
abbrev LiveInode := Bytes → UInt32 → Int × Bytes

/-- `osd_iit_next`: given the bitmap of a group, the inodes of a group and where to go on, the
place in the group of the inode it moves to, if there is one. It does not go back, and it does
not leave the group.
-/
structure OsdIitNext where
  next : (Nat → Bool) → Nat → Nat → Option Nat
  inside
    : ∀ bitmap size offset index, next bitmap size offset = some index
        → offset ≤ index ∧ index < size

/-- What one call of the iterator meets. -/
structure OsdKernel where
  lfuBlockparse : Bool
  lfuRaBlocks : UInt32
  badBlock : UInt64 → Bool
  ldiskfsReadInodeBitmap : Nat → Except Int (Nat → Bool)
  osdIitNext : OsdIitNext
  osdIitIget : UInt32 → IgetResult
  osdIget : UInt32 → Except Int LiveInode

/-- The device as the raw path reads it. -/
def OsdKernel.device (env : OsdKernel) (fs : Ldiskfs) : OsdDevice where
  sb := fs.sb
  rootIno := fs.rootIno
  isRemoteParentIno := fs.isRemoteParentIno
  sbBread := fun blk => if env.badBlock blk then none else some (fs.blocks blk)

-----------------------------------------------------------------------------------------
-- The walk
-----------------------------------------------------------------------------------------

/-- `struct dt_otable_stats`. -/
structure DtOtableStats where
  dosRaw : UInt64 := 0
  dosFallback : UInt64 := 0
  dosXaInline : UInt64 := 0
  dosXaExt : UInt64 := 0
  dosXaIget : UInt64 := 0

/-- A private iterator. `offset` is where the search in the group's bitmap goes on,
`posPreload` the inode the walk is at, and `oiiIno` the number in the current record.
-/
structure OsdPrivateIt extends OsdOtableIt where
  bg : Nat
  offset : UInt32
  posPreload : Nat
  bitmap : Option (Nat → Bool) := none
  cursor : ItableCursor := {}
  oiiIno : UInt32 := 0
  stats : DtOtableStats := {}

/-- What a call of `next` comes to: an object, the end of the table, or an error. -/
inductive NextResult
  | object (fid : LuFid) (la : LuAttr)
  | tableEnd
  | failed (rc : Int)

namespace OsdPrivateIt

/-- The buffers given back: the bitmap, and the inode-table block. -/
def release (it : OsdPrivateIt) : OsdPrivateIt :=
  let it := { it with bitmap := none }
  if it.bpBh.isSome then { it with bpBh := none, bpBlk := 0 } else it

def nextGroup (fs : Ldiskfs) (it : OsdPrivateIt) : OsdPrivateIt :=
  let it := it.release
  let gbase := fs.gbase (it.bg + 1)
  { it with bg := it.bg + 1, offset := 0, gbase, posPreload := gbase.toNat }

/-- The bitmap of the group, read if it is not held. -/
def groupBitmap (env : OsdKernel) (it : OsdPrivateIt) : Except Int (Nat → Bool) :=
  match it.bitmap with
  | some bitmap => .ok bitmap
  | none => env.ldiskfsReadInodeBitmap it.bg

end OsdPrivateIt

section Next

variable (fs : Ldiskfs) (env : OsdKernel)

/-- The iget path, for what the raw path has declined. -/
def visitIget (it : OsdPrivateIt) (pos : UInt32) : Option NextResult × OsdPrivateIt :=
  let wrote (lid : Bool) : OsdPrivateIt := if lid then { it with oiiIno := pos } else it
  match env.osdIitIget pos with
  | .found fid la => (some (.object fid la), { it with oiiIno := pos })
  | .skip lid => (none, wrote lid)
  | .failed rc lid => (some (.failed rc), wrote lid)

/-- The raw path, if block parsing is on. -/
def visitRaw (it : OsdOtableIt) (pos : UInt32) : RawObject × OsdOtableIt :=
  if env.lfuBlockparse then osdIitIgetRaw (env.device fs) it pos else (.failed (-eagain), it)

/-- One inode of the walk: an object or an error ends it, otherwise it goes on. -/
def visitInode (it : OsdPrivateIt) : Option NextResult × OsdPrivateIt :=
  let pos := UInt32.ofNat it.posPreload
  let (object, held) := visitRaw fs env it.toOsdOtableIt pos
  let it := { it with toOsdOtableIt := held }
  match object with
  | .found fid la =>
      (some (.object fid la), { it with oiiIno := pos, stats.dosRaw := it.stats.dosRaw + 1 })
  | .skip => (none, it)
  | .failed rc =>
      if rc == -eagain then
        visitIget env { it with stats.dosFallback := it.stats.dosFallback + 1 } pos
      else
        (some (.failed rc), it)

/-- The walk moved to the inode at `offset` of the group, with the readahead for it. -/
def OsdPrivateIt.moveTo (it : OsdPrivateIt) (offset : Nat) : OsdPrivateIt :=
  let pos := it.gbase + UInt32.ofNat offset
  let (_, cursor) :=
    osdItableReadahead fs.sb env.lfuRaBlocks (UInt32.ofNat it.bg) it.gbase it.cursor pos
  { it with offset := UInt32.ofNat (offset + 1), posPreload := pos.toNat, cursor }

/-- The inode `osd_iit_next` moves to, and the visit of it. -/
def searchGroup (it : OsdPrivateIt) : Option NextResult × OsdPrivateIt :=
  match it.bitmap.bind (env.osdIitNext.next · fs.perGroup it.offset.toNat) with
  | none => (none, it.nextGroup fs)
  | some offset => visitInode fs env (it.moveTo fs env offset)

/-- One round of the loop. -/
def privateRound (it : OsdPrivateIt) : Option NextResult × OsdPrivateIt :=
  match fs.groups[it.bg]? with
  | none => (some (.failed (-eio)), it)
  | some desc =>
      if desc.inodeUninit || it.offset + desc.itableUnused ≥ fs.sb.inodesPerGroup then
        (none, it.nextGroup fs)
      else
        match it.groupBitmap env with
        | .error rc => (some (.failed rc), it)
        | .ok bitmap =>
            searchGroup fs env { it with bitmap := some bitmap, itable := fs.osdGroupItable desc }

/-- The rounds left, `none` if they run out. -/
def nextPrivateLoop : Nat → OsdPrivateIt → Option (NextResult × OsdPrivateIt)
  | 0, _ => none
  | rounds + 1, it =>
      if it.posPreload > fs.sInodesCount.toNat then
        some (.tableEnd, it.release)
      else
        match privateRound fs env it with
        | (none, it) => nextPrivateLoop rounds it
        | (some (.object fid la), it) => some (.object fid la, it)
        | (some result, it) => some (result, it.release)

/-- A bound on the rounds: every round leaves its group, or moves on in it. -/
def roundsLeft (it : OsdPrivateIt) : Nat :=
  (fs.groups.length - it.bg) * (fs.perGroup + 1) + (fs.perGroup - it.offset.toNat)

def osdOtableItNextPrivate (it : OsdPrivateIt) : Option (NextResult × OsdPrivateIt) :=
  nextPrivateLoop fs env (roundsLeft fs it + 1) it

end Next

-----------------------------------------------------------------------------------------
-- Attributes of the current object
-----------------------------------------------------------------------------------------

inductive DoxWhere
  | none
  | inline
  | external
  | iget
deriving DecidableEq

/-- `struct dt_otable_xattr`. The buffer is given with what it holds. -/
structure DtOtableXattr where
  doxName : Option Bytes
  doxBuf : Option Bytes
  doxBuflen : UInt32
  doxLen : UInt32 := 0
  doxWhere : DoxWhere := .none
deriving DecidableEq

/-- `XATTR_TRUSTED_PREFIX`, "trusted.". -/
def xattrTrusted : Bytes := [0x74, 0x72, 0x75, 0x73, 0x74, 0x65, 0x64, 0x2e]

/-- The name behind "trusted.", if that is what the attribute's name starts with. -/
def trustedName (doxName : Bytes) : Option Bytes :=
  if xattrTrusted.isPrefixOf doxName then some (doxName.drop xattrTrusted.length) else none

/-- The inode has no external attribute block. -/
def noFileAcl (raw : Bytes) : Bool := lfuLe32 raw 104 == 0 && lfuLe16 raw 118 == 0

section Xattr

variable (fs : Ldiskfs) (env : OsdKernel)

/-- The record of the current object in the held block, if the block is that object's. -/
def heldRecord (it : OsdPrivateIt) : Option Bytes :=
  match it.bpBh, fs.groups[it.bg]? with
  | some _, some desc =>
      let ipb := fs.sb.sBlocksize / fs.sb.inodeSize
      let index := it.oiiIno - it.gbase
      if it.oiiIno ≥ it.gbase && ipb != 0 && index < fs.sb.inodesPerGroup
          && fs.osdGroupItable desc + (index / ipb).toUInt64 == it.bpBlk then
        some (it.inodeRecord fs.sb it.oiiIno)
      else
        none
  | _, _ => none

/-- The held record and the name to look up in it. -/
def heldLookup (it : OsdPrivateIt) (doxName : Bytes) : Option (Bytes × Bytes) := do
  let name ← trustedName doxName
  let raw ← heldRecord fs it
  if name.length ≤ 255 then some (raw, name) else none

/-- Through a live inode. -/
def xattrByInode (it : OsdPrivateIt) (dox : DtOtableXattr) (doxName buf : Bytes)
    (doxWhere : DoxWhere)
    : Int × DtOtableXattr × OsdPrivateIt :=
  match env.osdIget it.oiiIno with
  | .error rc => (rc, dox, it)
  | .ok inode =>
      let (rc, bytes) := inode doxName dox.doxBuflen
      let size := if rc == -erange then (inode doxName 0).1 else rc
      let dox :=
        {
          dox with
          doxLen := UInt32.ofNat size.toNat
          doxBuf := some (bytes ++ buf.drop bytes.length)
        }
      let answer := if rc == 0 then -enodata else rc
      if rc ≥ 0 || rc == -erange then
        let stats :=
          if doxWhere == .external then
            { it.stats with dosXaExt := it.stats.dosXaExt + 1 }
          else
            { it.stats with dosXaIget := it.stats.dosXaIget + 1 }
        (answer, { dox with doxWhere }, { it with stats })
      else
        (answer, dox, it)

/-- The attribute of the current object: return value, request and iterator afterwards. The
record slot of a private iterator is always in use.
-/
def osdOtableItXattr (it : OsdPrivateIt) (dox : DtOtableXattr)
    : Int × DtOtableXattr × OsdPrivateIt :=
  match dox.doxName, dox.doxBuf with
  | some doxName, some buf =>
      let dox := { dox with doxLen := 0, doxWhere := .none }
      match heldLookup fs it doxName with
      | none => xattrByInode env it dox doxName buf .iget
      | some (raw, name) =>
          match osdRawXattr fs.sb raw lfuXattrIndexTrusted name with
          | .ok (off, vlen) =>
              let it := { it with stats.dosXaInline := it.stats.dosXaInline + 1 }
              let dox := { dox with doxLen := UInt32.ofNat vlen, doxWhere := .inline }
              if vlen > dox.doxBuflen.toNat then
                (-erange, dox, it)
              else
                (vlen, { dox with doxBuf := some (window raw off vlen ++ buf.drop vlen) }, it)
          | .error rc =>
              if rc == -enodata && noFileAcl raw then
                (-enodata, dox, it)
              else
                xattrByInode env it dox doxName buf .external
  | _, _ => (-einval, dox, it)

end Xattr

end LfuScan.Osd
