import LfuScan.Filter.Predicate

/-! The object stream's record: what the kernel side fills from an iterator record, and
what the userspace side reads back out of it.
-/

namespace LfuScan.Ring

open LfuScan.Lustre LfuScan.Filter

/-- The attributes an OSD iterator reports (`struct lu_attr`). -/
structure LuAttr where
  laValid : UInt64 := 0
  laSize : UInt64 := 0
  laMtime : Int64 := 0
  laAtime : Int64 := 0
  laCtime : Int64 := 0
  laBtime : Int64 := 0
  laBlocks : UInt64 := 0
  laMode : UInt32 := 0
  laUid : UInt32 := 0
  laGid : UInt32 := 0
  laFlags : UInt32 := 0
  laNlink : UInt32 := 0
  laProjid : UInt32 := 0
deriving DecidableEq, Inhabited

/-- The iterator's record (`struct dt_otable_rec`). -/
structure DtOtableRec where
  dorFid : LuFid := {}
  dorAttr : LuAttr := {}
deriving DecidableEq, Inhabited

def lfuWrUnknown : UInt32 := 0x01
def lfuWrHaveSom : UInt32 := 0x02
def lfuWrHaveLov : UInt32 := 0x04
def lfuWrHaveLmv : UInt32 := 0x08
def lfuWrXaExternal : UInt32 := 0x10

/-- The fixed-size record of the stream, wire version 2. -/
structure LfuWireRec where
  wrOid : UInt64 := 0
  wrFidSeq : UInt64 := 0
  wrValid : UInt64 := 0
  wrSize : UInt64 := 0
  wrBlocks : UInt64 := 0
  wrAtime : Int64 := 0
  wrMtime : Int64 := 0
  wrCtime : Int64 := 0
  wrFidOid : UInt32 := 0
  wrFidVer : UInt32 := 0
  wrMode : UInt32 := 0
  wrNlink : UInt32 := 0
  wrUid : UInt32 := 0
  wrGid : UInt32 := 0
  wrBtime : Int64 := 0
  wrSomSize : UInt64 := 0
  wrSomBlocks : UInt64 := 0
  wrProjid : UInt32 := 0
  wrFlags : UInt32 := 0
  wrLmaCompat : UInt32 := 0
  wrLmaIncompat : UInt32 := 0
  wrLfu : UInt32 := 0
  wrStripeCount : UInt32 := 0
  wrStripeSize : UInt32 := 0
  wrLmvCount : UInt32 := 0
  wrLmvHash : UInt32 := 0
  wrSomValid : UInt16 := 0
  wrPool : Vector UInt8 16 := Vector.replicate 16 0
deriving DecidableEq, Inhabited

/-- `sizeof(struct lfu_wire_rec)`. -/
def lfuWireRecSize : UInt64 := 168

/-- `(u32)` of a 64-bit time. -/
def timeLow (time : Int64) : UInt32 := time.toUInt64.toUInt32

/-- The evaluator's view of an object, from the iterator's record. -/
def lfuRecFromDor (oid : UInt64) (dor : DtOtableRec) : LfuRec :=
  let la := dor.dorAttr
  {
    fid := dor.dorFid
    id := oid
    mode := la.laMode.toUInt16
    nlink := la.laNlink
    uid := la.laUid
    gid := la.laGid
    projid := la.laProjid
    flags := la.laFlags
    size := la.laSize
    blocks := la.laBlocks
    atime := timeLow la.laAtime
    mtime := timeLow la.laMtime
    ctime := timeLow la.laCtime
    crtime := timeLow la.laBtime
    lmaIncompat :=
      (if la.laFlags &&& lustreOrphanFl != 0 then lmaiOrphan else 0)
        ||| (if la.laFlags &&& lustreEncryptFl != 0 then lmaiEncrypt else 0)
  }

/-- The three optional groups `lfu_fill_rec` copies from the decoded attributes. -/
def fillSom (wr : LfuWireRec) (t1 : LfuTier1) : LfuWireRec :=
  if t1.haveSom then
    {
      wr with
      wrLfu := wr.wrLfu ||| lfuWrHaveSom
      wrSomValid := t1.somValid
      wrSomSize := t1.somSize
      wrSomBlocks := t1.somBlocks
    }
  else
    wr

@[inherit_doc fillSom]
def fillLov (wr : LfuWireRec) (t1 : LfuTier1) : LfuWireRec :=
  if t1.haveLov then
    {
      wr with
      wrLfu := wr.wrLfu ||| lfuWrHaveLov
      wrStripeCount := t1.stripeCount
      wrStripeSize := t1.stripeSize
      wrPool := t1.pool
    }
  else
    wr

@[inherit_doc fillSom]
def fillLmv (wr : LfuWireRec) (t1 : LfuTier1) : LfuWireRec :=
  if t1.haveLmv then
    {
      wr with
      wrLfu := wr.wrLfu ||| lfuWrHaveLmv
      wrLmvCount := t1.lmvCount
      wrLmvHash := t1.lmvHash
    }
  else
    wr

def lfuFillRec (oid : UInt64) (dor : DtOtableRec) (rec : LfuRec) (lfuBits : UInt32)
    : LfuWireRec :=
  let la := dor.dorAttr
  let wr : LfuWireRec := {
    wrOid := oid
    wrFidSeq := dor.dorFid.fSeq
    wrFidOid := dor.dorFid.fOid
    wrFidVer := dor.dorFid.fVer
    wrValid := la.laValid
    wrMode := la.laMode
    wrNlink := la.laNlink
    wrUid := la.laUid
    wrGid := la.laGid
    wrSize := la.laSize
    wrBlocks := la.laBlocks
    wrAtime := la.laAtime
    wrMtime := la.laMtime
    wrCtime := la.laCtime
    wrBtime := la.laBtime
    wrProjid := la.laProjid
    wrFlags := la.laFlags
    wrLmaCompat := rec.lmaCompat
    wrLmaIncompat := rec.lmaIncompat
    wrLfu := lfuBits
  }
  if rec.t1Valid then fillLmv (fillLov (fillSom wr rec.t1) rec.t1) rec.t1 else wr

/-- The groups `lfu_kmdt_rec` reads back, each guarded by its bit. -/
def wireSom (wr : LfuWireRec) : Tier1Som :=
  if wr.wrLfu &&& lfuWrHaveSom != 0 then
    {
      haveSom := true
      somValid := wr.wrSomValid
      somSize := wr.wrSomSize
      somBlocks := wr.wrSomBlocks
    }
  else
    {}

@[inherit_doc wireSom]
def wireLov (wr : LfuWireRec) : Tier1Lov :=
  if wr.wrLfu &&& lfuWrHaveLov != 0 then
    {
      haveLov := true
      stripeCount := wr.wrStripeCount
      stripeSize := wr.wrStripeSize
      pool := wr.wrPool.setIfInBounds 15 0
    }
  else
    {}

@[inherit_doc wireSom]
def wireLmv (wr : LfuWireRec) : Tier1Lmv :=
  if wr.wrLfu &&& lfuWrHaveLmv != 0 then
    { haveLmv := true, lmvCount := wr.wrLmvCount, lmvHash := wr.wrLmvHash }
  else
    {}

/-- The wire record to the core's record. -/
def lfuKmdtRec (wr : LfuWireRec) : LfuRec :=
  let t1Present := wr.wrLfu &&& (lfuWrHaveSom ||| lfuWrHaveLov ||| lfuWrHaveLmv) != 0
  {
    id := wr.wrOid
    fid := { fSeq := wr.wrFidSeq, fOid := wr.wrFidOid, fVer := wr.wrFidVer }
    lmaCompat := wr.wrLmaCompat
    lmaIncompat := wr.wrLmaIncompat
    mode := wr.wrMode.toUInt16
    nlink := wr.wrNlink
    uid := wr.wrUid
    gid := wr.wrGid
    projid := wr.wrProjid
    flags := wr.wrFlags &&& lfuAttrAll
    size := wr.wrSize
    blocks := wr.wrBlocks
    atime := timeLow wr.wrAtime
    mtime := timeLow wr.wrMtime
    ctime := timeLow wr.wrCtime
    crtime := timeLow wr.wrBtime
    hasExtEa := wr.wrLfu &&& lfuWrXaExternal != 0
    unknown := wr.wrLfu &&& lfuWrUnknown != 0
    t1 :=
      if t1Present then
        { toTier1Som := wireSom wr, toTier1Lov := wireLov wr, toTier1Lmv := wireLmv wr }
      else
        {}
    t1Valid := t1Present
  }

end LfuScan.Ring
