import LfuScan.ScanDevice.DirStripe
import LfuScan.ScanDevice.FileLayout
import LfuScan.ScanDevice.Links
import LfuScan.Foundations.Posix

/-! The record a scan of a target makes of one object: what the object is, and every field its
attributes answer for. A worker has a name buffer and a stripe buffer that serve all its
objects; what a consumer reads of a record does not depend on what they held before.
-/

namespace LfuScan.ScanDevice

open LfuScan.Lustre LfuScan.Foundations LfuScan.Filter

/-- `enum llapi_scan_xattr`. -/
inductive ScanXattr
  | lma
  | lov
  | lmv
  | som
  | link
  | hsm
  | pfid
deriving DecidableEq, Repr

/-- `enum llapi_scan_class`. -/
inductive ScanClass
  | visible
  | internal
  | ostObj
  | agent
  | noLma
  | bad
  | orphan
deriving DecidableEq, Repr

def scanSoProjid : UInt32 := 0x00000001
def scanSoBtime : UInt32 := 0x00000002
def scanSoGen : UInt32 := 0x00000004

/-- `struct llapi_scan_obj`. The values that were read stand for `so_xa_valid` as well. -/
structure LlapiScanObj where
  soId : UInt64
  soMode : UInt32
  soNlink : UInt32 := 0
  soUid : UInt32 := 0
  soGid : UInt32 := 0
  soProjid : UInt32 := 0
  soFlags : UInt32 := 0
  soGen : UInt32 := 0
  soRdev : UInt32 := 0
  soSize : UInt64 := 0
  soBlocks : UInt64 := 0
  soAtime : Int64 := 0
  soMtime : Int64 := 0
  soCtime : Int64 := 0
  soBtime : Int64 := 0
  soValid : UInt32 := 0
  soAttrsMask : UInt32 := 0
  soXattr : ScanXattr → Option Bytes := fun _ => none

def scanTgtOst : UInt32 := 0x00000001
def scanTgtMdt : UInt32 := 0x00000002
def scanTgtIndex : UInt32 := 0x00000004

/-- `struct llapi_scan_tgt`. -/
structure LlapiScanTgt where
  ttLabel : Bytes := []
  ttIndex : UInt32 := 0
  ttFlags : UInt32 := 0
  ttChunks : Nat := 0

/-- The host and its headers: the byte order, the page size, the largest number of stripes a
directory can have and what is a FID.
-/
structure Host where
  order : ByteOrder
  pageSize : UInt32
  lmvMaxStripeCount : Nat
  fid : LustreFid

def scanFInternal : UInt64 := 0x00000002

-----------------------------------------------------------------------------------------
-- Records
-----------------------------------------------------------------------------------------

def statxType : UInt64 := 0x001
def statxMode : UInt64 := 0x002
def statxNlink : UInt64 := 0x004
def statxUid : UInt64 := 0x008
def statxGid : UInt64 := 0x010
def statxAtime : UInt64 := 0x020
def statxMtime : UInt64 := 0x040
def statxCtime : UInt64 := 0x080
def statxSize : UInt64 := 0x200
def statxBlocks : UInt64 := 0x400
def statxBtime : UInt64 := 0x800

def statxAttrImmutable : UInt32 := 0x00000010
def statxAttrAppend : UInt32 := 0x00000020
def statxAttrEncrypted : UInt64 := 0x00000800

def scanFid : UInt64 := 0x0000000100000000
def scanAttrs : UInt64 := 0x0000000200000000
def scanLayout : UInt64 := 0x0000000400000000
def scanMdtIndex : UInt64 := 0x0000000800000000
def scanLmv : UInt64 := 0x0000001000000000
def scanLmvForeign : UInt64 := 0x0000002000000000
def scanLazySize : UInt64 := 0x0000004000000000
def scanLazyBlocks : UInt64 := 0x0000008000000000
def scanProjid : UInt64 := 0x0000010000000000
def scanHsmBit : UInt64 := 0x0000020000000000
def scanIno : UInt64 := 0x0000040000000000
def scanParent : UInt64 := 0x0000080000000000
def scanLinkeaBit : UInt64 := 0x0000100000000000
def scanLma : UInt64 := 0x0000200000000000
def scanClassBit : UInt64 := 0x0000400000000000
def scanLmvShard : UInt64 := 0x0000800000000000
def scanOwnerBit : UInt64 := 0x0001000000000000

/-- `struct statx`, as far as a scan of a target fills it. -/
structure Statx where
  stxMask : UInt32 := 0
  stxBlksize : UInt32 := 0
  stxAttributes : UInt64 := 0
  stxNlink : UInt32 := 0
  stxUid : UInt32 := 0
  stxGid : UInt32 := 0
  stxMode : UInt16 := 0
  stxSize : UInt64 := 0
  stxBlocks : UInt64 := 0
  stxAttributesMask : UInt64 := 0
  stxAtime : Int64 := 0
  stxBtime : Int64 := 0
  stxCtime : Int64 := 0
  stxMtime : Int64 := 0
  stxRdevMajor : UInt32 := 0
  stxRdevMinor : UInt32 := 0
deriving DecidableEq

/-- `struct llapi_scan_rec`, as far as a scan of a target fills it. What it points at is there
as the bytes a consumer reads.
-/
structure LlapiScanRec where
  lfsrStx : Statx := {}
  lfsrValid : UInt64 := 0
  lfsrFid : LuFid := {}
  lfsrName : Option Bytes := none
  lfsrProjid : UInt32 := 0
  lfsrMdtIndex : UInt32 := 0
  lfsrLmm : Option Bytes := none
  lfsrLmv : Option Bytes := none
  lfsrLmvsize : Nat := 0
  lfsrHsmStates : UInt32 := 0
  lfsrHsmArchiveId : UInt32 := 0
  lfsrIno : UInt64 := 0
  lfsrParentFid : LuFid := {}
  lfsrLinkea : Option Bytes := none
  lfsrClass : ScanClass := .visible
  lfsrLmaCompat : UInt32 := 0
  lfsrLmaIncompat : UInt32 := 0
  lfsrOwnerFid : LuFid := {}
deriving DecidableEq

/-- The part of `struct scan_dev` that stays as it is during a sweep. The consumer's filter
answers from the record alone.
-/
structure ScanDev where
  sdTgtInfo : LlapiScanTgt
  sdFilter : Option (LlapiScanRec → Int) := none
  sdWant : UInt64 := 0
  sdFlags : UInt64 := 0
  sdVisible : ScanClass

/-- The attributes a demand mask implies. -/
def scanWantXattr (want : UInt64) (x : ScanXattr) : Bool :=
  let size := want &&& (statxSize ||| statxBlocks ||| scanLazySize ||| scanLazyBlocks) != 0
  match x with
  | .lma | .link => true
  | .lov => want &&& scanLayout != 0 || size
  | .lmv => want &&& scanLmv != 0 || size
  | .som => size
  | .hsm => want &&& scanHsmBit != 0
  | .pfid => want &&& scanOwnerBit != 0

/-- `struct lustre_mdt_attrs`. -/
structure LustreMdtAttrs where
  lmaCompat : UInt32 := 0
  lmaIncompat : UInt32 := 0
  lmaSelfFid : LuFid := {}
deriving DecidableEq

def lustreMdtAttrsSize : Nat := 24

/-- A FID in little-endian order. -/
def loadFid (b : Bytes) (off : Nat) : Option LuFid := do
  let fSeq ← Checked.lfuLe64 b off
  let fOid ← Checked.lfuLe32 b (off + 8)
  let fVer ← Checked.lfuLe32 b (off + 12)
  return { fSeq, fOid, fVer }

def scanDecodeLma (obj : LlapiScanObj) : Option (Option LustreMdtAttrs) :=
  match obj.soXattr .lma with
  | none => some none
  | some disk =>
      if disk.length < lustreMdtAttrsSize then
        some none
      else do
        let lmaCompat ← Checked.lfuLe32 disk 0
        let lmaIncompat ← Checked.lfuLe32 disk 4
        let lmaSelfFid ← loadFid disk 8
        return some { lmaCompat, lmaIncompat, lmaSelfFid }

def scanClassify (fid : LustreFid) (lma : Option LustreMdtAttrs) (mdt haveLink : Bool)
    : ScanClass :=
  match lma with
  | none => .noLma
  | some lma =>
      let seq := lma.lmaSelfFid.fSeq
      if lma.lmaIncompat &&& ~~~lmaIncompatSupp != 0 then
        .bad
      else if lma.lmaCompat &&& lmacNotInOi != 0 then
        .internal
      else if lma.lmaIncompat &&& lmaiAgent != 0 then
        .agent
      else if fid.fidIsLastId lma.lmaSelfFid then
        .internal
      else if lma.lmaCompat &&& lmacFidOnOst != 0 then
        .ostObj
      else if fidSeqIsIdif seq then
        .ostObj
      else if lma.lmaIncompat &&& lmaiOrphan != 0 then
        .orphan
      else if fid.fidIsRoot lma.lmaSelfFid || fidSeqIsDot seq then
        .visible
      else if fidSeqIsNorm seq || fidSeqIsIgif seq then
        if mdt && !haveLink then .internal else .visible
      else
        .internal

-----------------------------------------------------------------------------------------
-- Filling a record
-----------------------------------------------------------------------------------------

/-- What the object carries itself, before any attribute is read. -/
def scanRecObj (host : Host) (dev : ScanDev) (obj : LlapiScanObj) : LlapiScanRec :=
  let device := sIschr obj.soMode || sIsblk obj.soMode
  let btime := obj.soValid &&& scanSoBtime != 0
  let projid := obj.soValid &&& scanSoProjid != 0
  let need := scanTgtMdt ||| scanTgtIndex
  let indexed := dev.sdTgtInfo.ttFlags &&& need == need
  {
    lfsrStx := {
      stxMask := (statxMode ||| statxType ||| statxNlink ||| statxUid ||| statxGid
        ||| statxAtime ||| statxMtime ||| statxCtime
        ||| (if btime then statxBtime else 0)).toUInt32
      stxBlksize := host.pageSize
      stxAttributes := (obj.soFlags &&& obj.soAttrsMask).toUInt64
      stxNlink := obj.soNlink
      stxUid := obj.soUid
      stxGid := obj.soGid
      stxMode := obj.soMode.toUInt16
      stxAttributesMask := obj.soAttrsMask.toUInt64
      stxAtime := obj.soAtime
      stxBtime := if btime then obj.soBtime else 0
      stxCtime := obj.soCtime
      stxMtime := obj.soMtime
      stxRdevMajor := if device then (obj.soRdev >>> 8) &&& 0xff else 0
      stxRdevMinor := if device then obj.soRdev &&& 0xff else 0
    }
    lfsrIno := obj.soId
    lfsrProjid := if projid then obj.soProjid else 0
    lfsrMdtIndex := if indexed then dev.sdTgtInfo.ttIndex else 0
    lfsrValid := scanIno ||| (if obj.soAttrsMask != 0 then scanAttrs else 0)
      ||| (if projid then scanProjid else 0) ||| (if indexed then scanMdtIndex else 0)
  }

/-- Whether an inode without an LMA is an IGIF here: only on MDT0000. -/
def scanTgtHasIgif (dev : ScanDev) : Bool :=
  let need := scanTgtMdt ||| scanTgtIndex
  dev.sdTgtInfo.ttFlags &&& need == need && dev.sdTgtInfo.ttIndex == 0

/-- What the LMA says, or the IGIF an object without one has on MDT0000. -/
def fillFid (host : Host) (dev : ScanDev) (obj : LlapiScanObj) (lma : Option LustreMdtAttrs)
    (rec : LlapiScanRec)
    : LlapiScanRec :=
  match lma with
  | some lma =>
      {
        rec with
        lfsrLmaCompat := lma.lmaCompat
        lfsrLmaIncompat := lma.lmaIncompat
        lfsrStx := {
          rec.lfsrStx with
          stxAttributesMask := rec.lfsrStx.stxAttributesMask ||| statxAttrEncrypted
          stxAttributes :=
            if lma.lmaIncompat &&& lmaiEncrypt != 0 then
              rec.lfsrStx.stxAttributes ||| statxAttrEncrypted
            else
              rec.lfsrStx.stxAttributes
        }
        lfsrFid := lma.lmaSelfFid
        lfsrValid := rec.lfsrValid ||| scanLma ||| scanAttrs
          ||| (if host.fid.fidIsSane lma.lmaSelfFid then scanFid else 0)
      }
  | none =>
      if obj.soValid &&& scanSoGen != 0 && scanTgtHasIgif dev then
        let igif := host.fid.luIgifBuild obj.soId.toUInt32 obj.soGen
        {
          rec with
          lfsrFid := igif
          lfsrValid := rec.lfsrValid ||| (if fidSeqIsIgif igif.fSeq then scanFid else 0)
        }
      else
        rec

def fillLayout (obj : LlapiScanObj) (rec : LlapiScanRec) : LlapiScanRec :=
  match obj.soXattr .lov with
  | none => rec
  | some val => { rec with lfsrLmm := some val, lfsrValid := rec.lfsrValid ||| scanLayout }

/-- The directory stripe, through the worker's buffer. -/
def fillLmv (host : Host) (obj : LlapiScanObj) (buf : Bytes) (rec : LlapiScanRec)
    : Option (Bytes × LlapiScanRec) :=
  match obj.soXattr .lmv with
  | none => some (buf, rec)
  | some val => do
      let (ulen, buf) ← scanLmvToUser host.order host.lmvMaxStripeCount val buf
      if ulen ≠ 0 then
        let magic ← Checked.lfuHost32 host.order buf 0
        return (buf,
          {
            rec with
            lfsrLmv := some (lmvClaimed host.order buf ulen)
            lfsrLmvsize := ulen
            lfsrValid := rec.lfsrValid ||| scanLmv
              ||| (if magic == lmvMagicForeign then scanLmvForeign else 0)
          })
      else if ← scanLmvIsShard val then
        return (buf, { rec with lfsrValid := rec.lfsrValid ||| scanLmvShard })
      else
        return (buf, rec)

/-- The raw attribute, with the name and the parent of the first entry. -/
def scanLinkea (host : Host) (obj : LlapiScanObj) (name : Vector UInt8 256)
    (rec : LlapiScanRec)
    : Option (Vector UInt8 256 × LlapiScanRec) :=
  match obj.soXattr .link with
  | none => some (name, rec)
  | some buf => do
      let (count, parent, name) ← scanLinkeaEntry host.order buf 0 {} name
      if count = 0 then
        return (name, rec)
      else
        let sane := host.fid.fidIsSane parent
        let text ← loadString name
        return (name,
          {
            rec with
            lfsrLinkea := some buf
            lfsrValid := rec.lfsrValid ||| scanLinkeaBit ||| (if sane then scanParent else 0)
            lfsrParentFid := if sane then parent else {}
            lfsrName := if text ≠ [] then some text else rec.lfsrName
          })

/-- The link is read for a caller who wants it or the parent. -/
def fillLink (host : Host) (dev : ScanDev) (obj : LlapiScanObj) (name : Vector UInt8 256)
    (rec : LlapiScanRec)
    : Option (Vector UInt8 256 × LlapiScanRec) :=
  if dev.sdWant &&& (scanLinkeaBit ||| scanParent) != 0 then
    scanLinkea host obj name rec
  else
    some (name, rec)

def lmacStripeInfo : UInt32 := 0x00000010

/-- Where the FID of the file an OST object belongs to is. -/
def ownerFid (obj : LlapiScanObj) (rec : LlapiScanRec) : Option (Bytes × Nat) :=
  match obj.soXattr .pfid with
  | some ff =>
      if ff.length ≥ 16 then
        some (ff, 0)
      else
        lmaOwner
  | none => lmaOwner
where
  lmaOwner : Option (Bytes × Nat) :=
    if rec.lfsrValid &&& scanLma != 0 && rec.lfsrLmaCompat &&& lmacStripeInfo != 0 then
      match obj.soXattr .lma with
      | some loa => if loa.length ≥ lustreMdtAttrsSize + 16 then some (loa, 24) else none
      | none => none
    else
      none

def scanOwner (host : Host) (obj : LlapiScanObj) (rec : LlapiScanRec) : Option LlapiScanRec :=
  if rec.lfsrClass ≠ .ostObj then
    some rec
  else
    match ownerFid obj rec with
    | none => some rec
    | some (b, off) => do
        let fSeq ← Checked.lfuLe64 b off
        let fOid ← Checked.lfuLe32 b (off + 8)
        let owner : LuFid := { fSeq, fOid, fVer := 0 }
        if host.fid.fidIsSane owner then
          return { rec with lfsrOwnerFid := owner, lfsrValid := rec.lfsrValid ||| scanOwnerBit }
        else
          return { rec with lfsrOwnerFid := {} }

def hsmAttrsSize : Nat := 24

def scanHsm (obj : LlapiScanObj) (rec : LlapiScanRec) : Option LlapiScanRec :=
  match obj.soXattr .hsm with
  | none => some rec
  | some hsm =>
      if hsm.length < hsmAttrsSize then
        some rec
      else do
        let states ← Checked.lfuLe32 hsm 4
        let archive ← Checked.lfuLe64 hsm 8
        return {
          rec with
          lfsrHsmStates := states
          lfsrHsmArchiveId := archive.toUInt32
          lfsrValid := rec.lfsrValid ||| scanHsmBit
        }

def somFlStale : UInt16 := 0x0002

/-- The size and the blocks the object has itself. -/
def ownSize (size blocks : UInt64) (rec : LlapiScanRec) : LlapiScanRec :=
  {
    rec with
    lfsrStx := {
      rec.lfsrStx with
      stxSize := size
      stxBlocks := blocks
      stxMask := rec.lfsrStx.stxMask ||| (statxSize ||| statxBlocks).toUInt32
    }
  }

/-- The size `trusted.som` has, exact or lazy. -/
def somSize (obj : LlapiScanObj) (rec : LlapiScanRec) : Option LlapiScanRec :=
  match obj.soXattr .som with
  | none => some rec
  | some som =>
      if som.length < lustreSomAttrsSize then
        some rec
      else do
        let valid ← Checked.lfuLe16 som 0
        if valid &&& (somFlStrict ||| somFlLazy ||| somFlStale) == 0 then
          return rec
        else
          let size ← Checked.lfuLe64 som 8
          let blocks ← Checked.lfuLe64 som 16
          if valid &&& somFlStrict != 0 then
            return ownSize size blocks rec
          else
            return {
              rec with
              lfsrStx := { rec.lfsrStx with stxSize := size, stxBlocks := blocks }
              lfsrValid := rec.lfsrValid ||| scanLazySize ||| scanLazyBlocks
            }

def scanSize (obj : LlapiScanObj) (want : UInt64) (ost : Bool) (rec : LlapiScanRec)
    : Option LlapiScanRec :=
  if want &&& (statxSize ||| statxBlocks ||| scanLazySize ||| scanLazyBlocks) == 0 then
    some rec
  else do
    if sIsdir obj.soMode && (← scanLmvIsStriped (obj.soXattr .lmv)) then
      return rec
    else
      match obj.soXattr .lov with
      | none =>
          return ownSize obj.soSize (if sIsreg obj.soMode && !ost then 0 else obj.soBlocks) rec
      | some lov =>
          if !sIsreg obj.soMode then
            return ownSize obj.soSize obj.soBlocks rec
          else if ← scanLovReleased lov then
            return ownSize obj.soSize (if obj.soSize == 0 then 0 else 1) rec
          else if ← scanLovDomOnly lov then
            return ownSize obj.soSize obj.soBlocks rec
          else
            somSize obj rec

/-- The buffers of a worker. -/
structure ScanBuf where
  swName : Vector UInt8 256
  swLmv : Bytes

/-- The stripe buffer holds the largest stripe. -/
def ScanBuf.Sized (host : Host) (buf : ScanBuf) : Prop :=
  buf.swLmv.length = scanLmvBuf host.lmvMaxStripeCount

/-- `calloc` of the workers. -/
def ScanBuf.cleared (host : Host) : ScanBuf :=
  {
    swName := Vector.replicate 256 0
    swLmv := List.replicate (scanLmvBuf host.lmvMaxStripeCount) 0
  }

/-- The sink up to its callback: the class the object is counted as, and the record that is
handed over unless the object is kept back.
-/
def sinkRecord (host : Host) (dev : ScanDev) (buf : ScanBuf) (obj : LlapiScanObj)
    : Option (ScanBuf × ScanClass × Option LlapiScanRec) := do
  let lma ← scanDecodeLma obj
  let mdt := dev.sdTgtInfo.ttFlags &&& scanTgtMdt != 0
  let cls := scanClassify host.fid lma mdt (obj.soXattr .link).isSome
  if cls ≠ dev.sdVisible && dev.sdFlags &&& scanFInternal == 0 then
    return (buf, cls, none)
  else
    let record := scanRecObj host dev obj
    let record := { record with lfsrClass := cls, lfsrValid := record.lfsrValid ||| scanClassBit }
    let record := fillLayout obj (fillFid host dev obj lma record)
    let (swLmv, record) ← fillLmv host obj buf.swLmv record
    let (swName, record) ← fillLink host dev obj buf.swName record
    let record ← scanHsm obj record
    let record ← scanOwner host obj record
    let record ← scanSize obj dev.sdWant (dev.sdTgtInfo.ttFlags &&& scanTgtOst != 0) record
    return ({ swName, swLmv }, cls, some record)

section Inside

variable (host : Host) (obj : LlapiScanObj) (rec : LlapiScanRec)

theorem scanDecodeLma_inside : ∃ lma, scanDecodeLma obj = some lma := by
  unfold scanDecodeLma
  split
  · exact ⟨none, rfl⟩
  · rename_i disk _
    split
    · exact ⟨none, rfl⟩
    · rename_i long
      have long : 24 ≤ disk.length := Nat.not_lt.mp long
      rw [Checked.lfuLe32_inside (by omega), Checked.lfuLe32_inside (by omega), loadFid,
        Checked.lfuLe64_inside (by omega), Checked.lfuLe32_inside (by omega),
        Checked.lfuLe32_inside (by omega)]
      exact ⟨_, rfl⟩

theorem scanHsm_inside : ∃ after, scanHsm obj rec = some after := by
  unfold scanHsm
  split
  · exact ⟨rec, rfl⟩
  · rename_i hsm _
    split
    · exact ⟨rec, rfl⟩
    · rename_i long
      have long : 24 ≤ hsm.length := Nat.not_lt.mp long
      rw [Checked.lfuLe32_inside (by omega), Checked.lfuLe64_inside (by omega)]
      exact ⟨_, rfl⟩

theorem ownerFid_inside {b : Bytes} {off : Nat} (found : ownerFid obj rec = some (b, off))
    : off + 16 ≤ b.length := by
  have lma (found : ownerFid.lmaOwner obj rec = some (b, off)) : off + 16 ≤ b.length := by
    unfold ownerFid.lmaOwner at found
    split at found
    · split at found
      · split at found
        · rename_i long
          cases found
          exact long
        · cases found
      · cases found
    · cases found
  unfold ownerFid at found
  split at found
  · split at found
    · rename_i long
      cases found
      omega
    · exact lma found
  · exact lma found

theorem scanOwner_inside : ∃ after, scanOwner host obj rec = some after := by
  unfold scanOwner
  split
  · exact ⟨rec, rfl⟩
  · split
    · exact ⟨rec, rfl⟩
    · rename_i b off found
      have inside := ownerFid_inside obj rec found
      rw [Checked.lfuLe64_inside (by omega), Checked.lfuLe32_inside (by omega)]
      simp only [Option.bind_eq_bind, Option.bind_some]
      exact ⟨_, (apply_ite some _ _ _).symm⟩

theorem somSize_inside : ∃ after, somSize obj rec = some after := by
  unfold somSize
  split
  · exact ⟨rec, rfl⟩
  · rename_i som _
    split
    · exact ⟨rec, rfl⟩
    · rename_i long
      have long : 24 ≤ som.length := Nat.not_lt.mp long
      rw [Checked.lfuLe16_inside (by omega), Checked.lfuLe64_inside (by omega),
        Checked.lfuLe64_inside (by omega)]
      simp only [Option.bind_eq_bind, Option.bind_some]
      split
      · exact ⟨rec, rfl⟩
      · exact ⟨_, (apply_ite some _ _ _).symm⟩

theorem scanLmvIsStriped_inside (disk : Option Bytes)
    : ∃ striped, scanLmvIsStriped disk = some striped := by
  unfold scanLmvIsStriped
  split
  · exact ⟨false, rfl⟩
  · rename_i disk
    split
    · exact ⟨false, rfl⟩
    · rw [Checked.lfuLe32_inside (by omega)]
      exact ⟨_, rfl⟩

theorem scanSize_inside (want : UInt64) (ost : Bool)
    : ∃ after, scanSize obj want ost rec = some after := by
  unfold scanSize
  split
  · exact ⟨rec, rfl⟩
  · obtain ⟨striped, tests⟩ := scanLmvIsStriped_inside (obj.soXattr .lmv)
    rw [tests, Option.bind_eq_bind, Option.bind_some]
    split
    · exact ⟨rec, rfl⟩
    · split
      · exact ⟨_, rfl⟩
      · rename_i lov _
        obtain ⟨released, first⟩ := scanLovReleased_inside lov
        obtain ⟨domOnly, second⟩ := scanLovDomOnly_inside lov
        rw [first, second]
        simp only [Option.bind_some]
        split
        · exact ⟨_, rfl⟩
        · split
          · exact ⟨_, rfl⟩
          · split
            · exact ⟨_, rfl⟩
            · exact somSize_inside obj rec

theorem scanLmvIsShard_inside (disk : Bytes) : ∃ shard, scanLmvIsShard disk = some shard := by
  unfold scanLmvIsShard
  split
  · exact ⟨false, rfl⟩
  · rw [Checked.lfuLe32_inside (by omega)]
    exact ⟨_, rfl⟩

/-- The stripe of the record is the same whatever the buffer held. -/
theorem fillLmv_spec
    : ∃ after, ∀ buf : Bytes, buf.length = scanLmvBuf host.lmvMaxStripeCount →
        ∃ left, fillLmv host obj buf rec = some (left, after) ∧ left.length = buf.length := by
  unfold fillLmv
  split
  · exact ⟨rec, fun buf _ => ⟨buf, rfl, rfl⟩⟩
  · rename_i val _
    obtain ⟨shard, tests⟩ := scanLmvIsShard_inside val
    by_cases refused : lmvUserSize host.lmvMaxStripeCount val = 0
    · refine ⟨if shard then { rec with lfsrValid := rec.lfsrValid ||| scanLmvShard } else rec,
        fun buf size => ?_⟩
      obtain ⟨left, converts, same, _⟩ := (scanLmvToUser_spec host.order val size).inside
      refine ⟨left, ?_, same⟩
      rw [converts, refused, tests]
      cases shard with
      | true => rfl
      | false => rfl
    · refine ⟨{
        rec with
        lfsrLmv := some (lmvUserArea host.order val)
        lfsrLmvsize := lmvUserSize host.lmvMaxStripeCount val
        lfsrValid := rec.lfsrValid ||| scanLmv
          ||| (if lfuLe32 val 0 == lmvMagicForeign then scanLmvForeign else 0)
      }, fun buf size => ?_⟩
      obtain ⟨left, converts, same, read⟩ := (scanLmvToUser_spec host.order val size).inside
      obtain ⟨claimed, magic⟩ := read refused
      have header : 0 + 4 ≤ left.length := by
        rw [same, size, scanLmvBuf, lmvUserMdSize]
        omega
      refine ⟨left, ?_, same⟩
      have read : Checked.lfuHost32 host.order left 0 = some (lfuLe32 val 0) := by
        rw [Checked.lfuHost32_inside _ header, magic]
      simp only [converts, Option.bind_eq_bind, Option.bind_some, if_pos refused, read, claimed]
      rfl

/-- The name of the record is the same whatever the buffer held. -/
theorem scanLinkea_spec
    : ∃ after, ∀ name : Vector UInt8 256,
        ∃ left, scanLinkea host obj name rec = some (left, after) := by
  unfold scanLinkea
  split
  · exact ⟨rec, fun name => ⟨name, rfl⟩⟩
  · rename_i buf _
    obtain ⟨count, counted⟩ := scanLinkeaCount_inside host.order buf
    have first (name : Vector UInt8 256) :=
      scanLinkeaNext_exit (by decide) buf 0 true {} name
    simp only [scanLinkeaEntry, linkeaSeek, counted, Option.bind_eq_bind, Option.bind_some]
    by_cases none_ : count = 0
    · subst none_
      exact ⟨rec, fun name => ⟨name, rfl⟩⟩
    · generalize linkAt 256 buf 0 = link at first
      rcases link with _ | ⟨next, place, text⟩
      · refine ⟨rec, fun name => ⟨name, ?_⟩⟩
        obtain ⟨result, ends, reached⟩ := first name
        cases reached
        rw [if_neg none_, ends]
        rfl
      · refine ⟨{
          rec with
          lfsrLinkea := some buf
          lfsrValid := rec.lfsrValid ||| scanLinkeaBit
            ||| (if host.fid.fidIsSane place then scanParent else 0)
          lfsrParentFid := if host.fid.fidIsSane place then place else {}
          lfsrName := if text ≠ [] then some text else rec.lfsrName
        }, fun name => ?_⟩
        obtain ⟨result, ends, reached⟩ := first name
        rcases reached with _ | @⟨read, _, _, _, _, filled, _⟩
        obtain ⟨parent, named⟩ := filled rfl
        refine ⟨read.name, ?_⟩
        rw [if_neg none_, ends]
        simp only [Option.bind_some, Option.pure_def, parent, named, if_neg none_]

theorem fillLink_spec (dev : ScanDev)
    : ∃ after, ∀ name : Vector UInt8 256,
        ∃ left, fillLink host dev obj name rec = some (left, after) := by
  unfold fillLink
  split
  · exact scanLinkea_spec host obj rec
  · exact ⟨rec, fun name => ⟨name, rfl⟩⟩

/-- An object is counted and recorded the same way by every worker, whatever objects went
through its buffers before.
-/
theorem sinkRecord_spec (dev : ScanDev)
    : ∃ cls record, ∀ buf : ScanBuf, buf.Sized host →
        ∃ left, sinkRecord host dev buf obj = some (left, cls, record) ∧ left.Sized host := by
  obtain ⟨lma, decodes⟩ := scanDecodeLma_inside obj
  simp only [sinkRecord, decodes, Option.bind_eq_bind, Option.bind_some]
  split
  · exact ⟨_, _, fun buf sized => ⟨buf, rfl, sized⟩⟩
  · generalize scanClassify .. = cls
    generalize fillLayout .. = record
    obtain ⟨striped, fills⟩ := fillLmv_spec host obj record
    obtain ⟨named, links⟩ := fillLink_spec host obj striped dev
    obtain ⟨archived, hsm⟩ := scanHsm_inside obj named
    obtain ⟨owned, owner⟩ := scanOwner_inside host obj archived
    obtain ⟨sizes, size⟩ :=
      scanSize_inside obj owned dev.sdWant (dev.sdTgtInfo.ttFlags &&& scanTgtOst != 0)
    refine ⟨cls, some sizes, fun buf sized => ?_⟩
    obtain ⟨swLmv, fill, same⟩ := fills buf.swLmv sized
    obtain ⟨swName, link⟩ := links buf.swName
    refine ⟨{ swName, swLmv }, ?_, same.trans sized⟩
    simp only [fill, Option.bind_some, link, hsm, owner, size]
    rfl

end Inside

/-- What the sink makes of an object: the class it is counted as, and the record unless the
object is kept back.
-/
def objectSink (host : Host) (dev : ScanDev) (obj : LlapiScanObj)
    : ScanClass × Option LlapiScanRec :=
  match sinkRecord host dev (.cleared host) obj with
  | none => (.noLma, none)
  | some (_, sunk) => sunk

theorem ScanBuf.cleared_sized (host : Host) : (ScanBuf.cleared host).Sized host :=
  List.length_replicate

/-- Every worker makes that of it. -/
theorem sinkRecord_objectSink {host : Host} {buf : ScanBuf} (sized : buf.Sized host)
    (dev : ScanDev) (obj : LlapiScanObj)
    : ∃ left, sinkRecord host dev buf obj = some (left, objectSink host dev obj)
        ∧ left.Sized host := by
  obtain ⟨cls, record, same⟩ := sinkRecord_spec host obj dev
  obtain ⟨_, first, _⟩ := same _ (ScanBuf.cleared_sized host)
  obtain ⟨left, sinks, kept⟩ := same buf sized
  refine ⟨left, ?_, kept⟩
  rw [sinks, objectSink, first]

/-- `sk_object` called with one object after another, by one worker. -/
def sinkRecords (host : Host) (dev : ScanDev)
    : ScanBuf → List LlapiScanObj → Option (List (ScanClass × Option LlapiScanRec))
  | _, [] => some []
  | buf, obj :: rest => do
      let (buf, sunk) ← sinkRecord host dev buf obj
      let others ← sinkRecords host dev buf rest
      return sunk :: others

/-- Whatever the attributes of the objects are, a worker reads and writes nothing outside of
them and of its buffers, and what it makes of an object does not depend on those before it.
-/
theorem sink_records_independent (host : Host) (dev : ScanDev) (objs : List LlapiScanObj)
    (buf : ScanBuf) (sized : buf.Sized host)
    : sinkRecords host dev buf objs = some (objs.map (objectSink host dev)) := by
  induction objs generalizing buf with
  | nil => rfl
  | cons obj rest ih =>
      obtain ⟨left, sinks, kept⟩ := sinkRecord_objectSink sized dev obj
      simp only [sinkRecords, sinks, Option.bind_eq_bind, Option.bind_some, ih left kept,
        List.map_cons]
      rfl

def oneHost : Host :=
  {
    order := .little
    pageSize := 4096
    lmvMaxStripeCount := 1
    fid := plainFid
  }

def oneDev : ScanDev :=
  {
    sdTgtInfo := { ttFlags := scanTgtMdt, ttChunks := 1 }
    sdFlags := scanFInternal
    sdVisible := .visible
  }

/-- An attribute with the FID of its object. -/
def lmaOf (fid : LuFid) : Bytes :=
  List.replicate 8 0 ++ (le64 fid.fSeq ++ (le32 fid.fOid ++ le32 fid.fVer))

/-- What is wanted to name objects, of a target of three chunks. -/
def namingDev : ScanDev :=
  {
    sdTgtInfo := { ttFlags := scanTgtMdt, ttChunks := 3 }
    sdWant := scanFid ||| scanParent ||| scanLinkeaBit ||| scanLmv
    sdVisible := .visible
  }

/-- A directory of one stripe with the name `a`. -/
def directoryA : LlapiScanObj :=
  {
    soId := 12
    soMode := 0o040755
    soXattr := fun
      | .lma => some (lmaOf { fSeq := 0x200000400, fOid := 1 })
      | .link => some (oneLink .little linkA).bytes
      | .lmv => some (le32 lmvMagicV1 ++ (le32 1 ++ List.replicate 48 0))
      | _ => none
  }

theorem letterB_text : (0x62 : UInt8) ≠ 0 := by decide

/-- A file with the name `b` in it. -/
def fileB : LlapiScanObj :=
  {
    soId := 13
    soMode := 0o100644
    soXattr := fun
      | .lma => some (lmaOf { fSeq := 0x200000400, fOid := 2 })
      | .link =>
          some
            (oneLink .big
              (letterLink #v[0, 0, 0, 2, 0, 0, 4, 0, 0, 0, 0, 1, 0, 0, 0, 0] 0x62
                letterB_text)).bytes
      | _ => none
  }

/-- A directory and a file, which fill the buffers, through buffers that others have left full.
-/
theorem sink_records_soiled
    : let buf : ScanBuf :=
        {
          swName := Vector.replicate 256 0x7a
          swLmv := List.replicate (scanLmvBuf oneHost.lmvMaxStripeCount) 0xff
        }
      sinkRecords oneHost namingDev buf [directoryA, fileB, directoryA]
        = some ([directoryA, fileB, directoryA].map (objectSink oneHost namingDev))
      ∧ (objectSink oneHost namingDev directoryA).2.map
          (fun rec => (rec.lfsrName, rec.lfsrLmvsize))
        = some (some [0x61], 48)
      ∧ (objectSink oneHost namingDev fileB).2.map (fun rec => (rec.lfsrName, rec.lfsrLmvsize))
        = some (some [0x62], 0) := by
  intro buf
  exact ⟨sink_records_independent oneHost namingDev [directoryA, fileB, directoryA] buf
    List.length_replicate, by decide +kernel, by decide +kernel⟩

end LfuScan.ScanDevice
