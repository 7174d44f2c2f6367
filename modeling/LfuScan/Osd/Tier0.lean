import LfuScan.Filter.Compiled
import LfuScan.Osd.Iget

/-! The two ldiskfs scanners, on the device and in the kernel, see the same inode. When do
they make the same tier-0 record of it?
-/

namespace LfuScan.Osd

open LfuScan.Lustre LfuScan.Filter LfuScan.Ring LfuScan.Device LfuScan.Foundations

/-- The two records agree on every field a tier-0 predicate compares, and on the size. -/
structure Tier0Agree (left right : LfuRec) : Prop where
  mode : left.mode = right.mode
  nlink : left.nlink = right.nlink
  uid : left.uid = right.uid
  gid : left.gid = right.gid
  projid : left.projid = right.projid
  attrs : left.flags &&& lfuAttrAll = right.flags &&& lfuAttrAll
  size : left.size = right.size
  blocks : left.blocks = right.blocks
  atime : left.atime = right.atime
  mtime : left.mtime = right.mtime
  ctime : left.ctime = right.ctime
  crtime : left.crtime = right.crtime

/-- The record with the attribute bits that have names, and no other flags. -/
def named (rec : LfuRec) : LfuRec := { rec with flags := rec.flags &&& lfuAttrAll }

theorem masked_and {word mask bits : UInt64} (within : bits &&& mask = bits)
    : word &&& mask &&& bits = word &&& bits := by
  rw [UInt64.and_assoc, UInt64.and_comm mask bits, within]

theorem lfuCmp_named (rec : LfuRec) {p : LfuPred} (all : p.op = LfuOp.all.code)
    (wanted : p.val &&& lfuAttrAll.toUInt64 = p.val)
    (unwanted : p.val2 &&& lfuAttrAll.toUInt64 = p.val2)
    : lfuCmp p (named rec).flags.toUInt64 = lfuCmp p rec.flags.toUInt64 := by
  have masked : (named rec).flags.toUInt64 = rec.flags.toUInt64 &&& lfuAttrAll.toUInt64 :=
    UInt32.toUInt64_and _ _
  simp only [lfuCmp, all, LfuOp.ofCode?_code, masked, masked_and wanted, masked_and unwanted]

theorem tier0Hit_named (rec : LfuRec) (now : Int) {p : LfuPred} (within : p.AttrsWithin)
    : tier0Hit p (named rec) now = tier0Hit p rec now := by
  cases field : LfuField.ofCode? p.field with
  | none => simp only [tier0Hit, field]
  | some fld =>
      cases fld with
      | attrs =>
          obtain ⟨all, wanted, unwanted⟩ := within field
          simp only [tier0Hit, field, lfuCmp_named rec all wanted unwanted]
      | _ => simp only [tier0Hit, field, named]

theorem lfuFilterTier0_named (rec : LfuRec) (now : Int) {f : LfuFilter}
    (within : ∀ p ∈ f.preds, p.AttrsWithin)
    : lfuFilterTier0 f (named rec) now = lfuFilterTier0 f rec now := by
  unfold lfuFilterTier0
  revert within
  induction f.preds with
  | nil => exact fun _ => rfl
  | cons p rest ih =>
      intro within
      have later := ih fun q member => within q (List.mem_cons_of_mem _ member)
      simp only [tier0Loop, tier0Hit_named rec now (within p List.mem_cons_self), later]

/-- Records that agree get the same answer from every filter that tests named attributes. -/
theorem Tier0Agree.filter {left right : LfuRec} (agree : Tier0Agree left right)
    {f : LfuFilter} (within : ∀ p ∈ f.preds, p.AttrsWithin) (now : Int)
    : lfuFilterTier0 f left now = lfuFilterTier0 f right now := by
  have same : SameFields (named left) (named right) :=
    ⟨agree.mode, agree.nlink, agree.uid, agree.gid, agree.projid, agree.attrs, agree.size,
      agree.blocks, agree.atime, agree.mtime, agree.ctime, agree.crtime⟩
  rw [← lfuFilterTier0_named left now within, ← lfuFilterTier0_named right now within]
  exact lfuFilterTier0_record same f

/-- The device scanner keeps the seconds of a time, and so does the low half of what the
kernel reports.
-/
theorem timeLow_rawTime (seconds : UInt32) (extra : Option UInt32)
    : timeLow (rawTime seconds extra) = seconds := by
  have low (value : UInt64) (epoch : Nat) (joined : value.toNat = seconds.toNat + epoch * 2 ^ 32)
      : timeLow value.toInt64 = seconds := by
    have bound := seconds.toNat_lt
    rw [← UInt32.toNat_inj]
    change value.toNat % 2 ^ 32 = _
    omega
  cases extra with
  | none => exact low _ 0 (by simp)
  | some extra => exact low _ _ (join_toNat seconds (epoch_toNat extra))

theorem attrs_agree (flags lmaIncompat : UInt32)
    : ((flags &&& lustreFlUserVisible) ||| lmaToLustreFlags lmaIncompat) &&& lfuAttrAll
      = flags &&& lfuAttrAll := by
  have apart : lmaToLustreFlags lmaIncompat &&& lfuAttrAll = 0 := by
    unfold lmaToLustreFlags
    split <;> split <;> decide
  rw [or_and_mask, apart, UInt32.or_zero, UInt32.and_assoc]
  rfl

/-- The number of blocks as the device scanner reads it. -/
def deviceBlocks (inode : Ext2InodeLarge) : UInt64 :=
  inode.iBlocks.toUInt64 ||| inode.lIBlocksHi.toUInt64 <<< 32

theorem deviceBlocks_toNat (inode : Ext2InodeLarge)
    : (deviceBlocks inode).toNat = inode.iBlocks.toNat + inode.lIBlocksHi.toNat * 2 ^ 32 := by
  refine join_toNat inode.iBlocks ?_
  have bound := inode.lIBlocksHi.toNat_lt
  rw [UInt64.toNat_shiftLeft, UInt16.toNat_toUInt64]
  change inode.lIBlocksHi.toNat <<< 32 % 2 ^ 64 = _
  rw [Nat.shiftLeft_eq]
  omega

/-- The shift from file system blocks to 512-byte units changes every number but zero. -/
theorem shift_blocks_iff (sb : SuperBlock) (inode : Ext2InodeLarge)
    : deviceBlocks inode = deviceBlocks inode <<< (sb.sBlocksizeBits.toUInt64 - 9)
      ↔ inode.iBlocks = 0 ∧ inode.lIBlocksHi = 0 := by
  have value := deviceBlocks_toNat inode
  have low := inode.iBlocks.toNat_lt
  have high := inode.lIBlocksHi.toNat_lt
  obtain ⟨atLeast, atMost⟩ := sb.bits_valid
  have atLeast : 10 ≤ sb.sBlocksizeBits.toNat := UInt8.le_iff_toNat_le.mp atLeast
  have atMost : sb.sBlocksizeBits.toNat ≤ 16 := UInt8.le_iff_toNat_le.mp atMost
  have shift : (sb.sBlocksizeBits.toUInt64 - 9).toNat = sb.sBlocksizeBits.toNat - 9 := by
    rw [UInt64.toNat_sub_of_le]
    · simp
    · rw [UInt64.le_iff_toNat_le]
      simpa using Nat.le_of_lt atLeast
  obtain ⟨k, bits⟩ := Nat.exists_eq_add_of_le atLeast
  have double : 2 ^ (k + 1) ≤ 2 ^ 7 := Nat.pow_le_pow_right (by decide) (by omega)
  have factor : 2 ≤ 2 ^ (k + 1) := Nat.pow_le_pow_right (n := 2) (by decide) (Nat.le_add_left 1 k)
  have bound : (deviceBlocks inode).toNat < 2 ^ 48 := by omega
  have shifted
      : (deviceBlocks inode <<< (sb.sBlocksizeBits.toUInt64 - 9)).toNat
        = (deviceBlocks inode).toNat * 2 ^ (k + 1) := by
    rw [UInt64.toNat_shiftLeft, shift, bits, Nat.mod_eq_of_lt (by omega : 10 + k - 9 < 64),
      Nat.shiftLeft_eq, show 10 + k - 9 = k + 1 by omega]
    refine Nat.mod_eq_of_lt ?_
    calc (deviceBlocks inode).toNat * 2 ^ (k + 1)
        ≤ (deviceBlocks inode).toNat * 2 ^ 7 := Nat.mul_le_mul_left _ double
      _ < 2 ^ 64 := by omega
  have grows := Nat.mul_le_mul_left (deviceBlocks inode).toNat factor
  rw [← UInt64.toNat_inj, shifted, ← UInt32.toNat_inj, ← UInt16.toNat_inj]
  change _ ↔ inode.iBlocks.toNat = 0 ∧ inode.lIBlocksHi.toNat = 0
  constructor
  · intro same
    omega
  · rintro ⟨lowZero, highZero⟩
    rw [value, lowZero, highZero]
    simp

-----------------------------------------------------------------------------------------
-- The two records
-----------------------------------------------------------------------------------------

/-- The inodes both scanners see alike: the high half of the block count is used by both or
empty, no count is in file system blocks, and a project id is there only with the feature.
-/
structure Tier0Exact (sb : SuperBlock) (inode : Ext2InodeLarge) : Prop where
  high : sb.hugeFile = false → inode.lIBlocksHi = 0
  huge
    : sb.hugeFile = true → inode.iFlags &&& ldiskfsHugeFileFl ≠ 0 →
      inode.iBlocks = 0 ∧ inode.lIBlocksHi = 0
  projid
    : sb.project = true ∨ inode.reaches projidEnd = false ∨ inode.iProjid = 0

theorem blocks_agree_iff (sb : SuperBlock) (inode : Ext2InodeLarge)
    : deviceBlocks inode = inodeBlocks sb inode
      ↔ (sb.hugeFile = false → inode.lIBlocksHi = 0)
        ∧ (sb.hugeFile = true → inode.iFlags &&& ldiskfsHugeFileFl ≠ 0 →
            inode.iBlocks = 0 ∧ inode.lIBlocksHi = 0) := by
  unfold inodeBlocks
  cases feature : sb.hugeFile with
  | false =>
      have low : deviceBlocks inode = inode.iBlocks.toUInt64 ↔ inode.lIBlocksHi = 0 := by
        rw [← UInt64.toNat_inj, deviceBlocks_toNat, UInt32.toNat_toUInt64, ← UInt16.toNat_inj]
        change _ ↔ inode.lIBlocksHi.toNat = 0
        omega
      simpa using low
  | true =>
      by_cases huge : inode.iFlags &&& ldiskfsHugeFileFl = 0
      · simp [huge, deviceBlocks]
      · have shifted := shift_blocks_iff sb inode
        simpa [huge, deviceBlocks] using shifted

theorem projid_agree_iff (sb : SuperBlock) (inode : Ext2InodeLarge)
    : (if inode.reaches projidEnd then inode.iProjid else 0)
        = (if sb.project then (extraField inode projidEnd inode.iProjid).getD 0 else 0)
      ↔ sb.project = true ∨ inode.reaches projidEnd = false ∨ inode.iProjid = 0 := by
  unfold extraField
  cases sb.project <;> cases inode.reaches projidEnd <;> simp

/-- Of the fields a tier-0 filter reads only the blocks and the project id can differ. -/
theorem tier0_agree_iff {sb : SuperBlock} (large : goodOldInodeSize < sb.inodeSize.toNat)
    (inode : Ext2InodeLarge) (ino : UInt32) (oid : UInt64) (fid : LuFid) (lmaIncompat : UInt32)
    : Tier0Agree (lfuExtractTier0 inode ino sb.inodeSize.toNat)
        (lfuRecFromDor oid { dorFid := fid, dorAttr := osdRawAttr sb inode lmaIncompat })
      ↔ Tier0Exact sb inode := by
  have blocks := blocks_agree_iff sb inode
  have projid := projid_agree_iff sb inode
  constructor
  · intro agree
    obtain ⟨high, huge⟩ := blocks.mp agree.blocks
    refine ⟨high, huge, projid.mp ?_⟩
    simpa [lfuExtractTier0, lfuRecFromDor, osdRawAttr, large] using agree.projid
  · intro exact_
    exact {
      mode := by simp [lfuExtractTier0, lfuRecFromDor, osdRawAttr]
      nlink := rfl
      uid := rfl
      gid := rfl
      projid := by
        simpa [lfuExtractTier0, lfuRecFromDor, osdRawAttr, large] using projid.mpr exact_.projid
      attrs := (attrs_agree inode.iFlags lmaIncompat).symm
      size := rfl
      blocks := blocks.mpr ⟨exact_.high, exact_.huge⟩
      atime := (timeLow_rawTime _ _).symm
      mtime := (timeLow_rawTime _ _).symm
      ctime := (timeLow_rawTime _ _).symm
      crtime := by
        simp only [lfuRecFromDor, osdRawAttr, timeLow_rawTime, extraField]
        simp only [lfuExtractTier0, large, decide_true, Bool.true_and]
        split <;> rfl
    }

/-- A record the raw path decodes is that of a large inode. -/
theorem osdRawLma_large {sb : SuperBlock} {raw : Bytes} {lma : LustreMdtAttrs}
    (read : osdRawLma sb raw = .ok lma)
    : goodOldInodeSize < sb.inodeSize.toNat := by
  by_contra small
  have missing : osdRawXattr sb raw lfuXattrIndexTrusted lmaName = .error (-enodata) :=
    if_pos (Nat.not_lt.mp small)
  rw [osdRawLma, missing] at read
  cases read

/-- The two scanners make the same tier-0 record of an inode, and every compiled filter gives
the same answer on both, exactly for the inodes of `Tier0Exact`.
-/
theorem scanners_agree_iff {dev : OsdDevice} {it it' : OsdOtableIt} {pos : UInt32}
    {fid : LuFid} {la : LuAttr} (found : osdIitIgetRaw dev it pos = (.found fid la, it'))
    : (Tier0Agree
          (lfuExtractTier0 (.ofRecord (it'.inodeRecord dev.sb pos)) pos
            dev.sb.inodeSize.toNat)
          (lfuRecFromDor pos.toUInt64 { dorFid := fid, dorAttr := la })
        ↔ Tier0Exact dev.sb (.ofRecord (it'.inodeRecord dev.sb pos)))
      ∧ (Tier0Exact dev.sb (.ofRecord (it'.inodeRecord dev.sb pos)) →
          ∀ ns f now, Compiled ns f →
            lfuFilterTier0 f
                (lfuExtractTier0 (.ofRecord (it'.inodeRecord dev.sb pos)) pos
                  dev.sb.inodeSize.toNat)
                now
              = lfuFilterTier0 f
                  (lfuRecFromDor pos.toUInt64 { dorFid := fid, dorAttr := la }) now) := by
  obtain ⟨lma, read, _, reported⟩ := osdRawObject_found (osdIitIgetRaw_found found)
  have agree := tier0_agree_iff (osdRawLma_large read)
    (.ofRecord (it'.inodeRecord dev.sb pos)) pos pos.toUInt64 fid lma.lmaIncompat
  rw [← reported] at agree
  refine ⟨agree, fun exact_ ns f now compiled => ?_⟩
  exact (agree.mpr exact_).filter compiled.attrsWithin now

/-- A file whose eight blocks are counted in file system blocks of 4 KiB. -/
def hugeFileDevice : OsdDevice :=
  {
    sampleDevice 1700000000 0 with
    sb := { (sampleDevice 1700000000 0).sb with hugeFile := true }
    sbBread :=
      fun _ =>
        some ((((sampleRecord 1700000000 0).set 28 8).set 34 4) ++ List.replicate 3840 0)
  }

/-- The device scanner takes the count as it is, the kernel scanner converts it to 512-byte
units: `--dev-blocks +10` selects the file in the kernel alone.
-/
theorem scanners_differ_hugeFile
    : ∃ fid la it' f,
        osdIitIgetRaw hugeFileDevice sampleIt 1 = (.found fid la, it')
        ∧ lfuInodePlausible (.ofRecord (it'.inodeRecord hugeFileDevice.sb 1)) 256 = true
        ∧ (lfuExtractTier0 (.ofRecord (it'.inodeRecord hugeFileDevice.sb 1)) 1 256).blocks = 8
        ∧ (lfuRecFromDor 1 { dorFid := fid, dorAttr := la }).blocks = 64
        ∧ compileAll noNames {} [(.devBlocks, cstr "+10")] = some f
        ∧ lfuFilterTier0 f
            (lfuExtractTier0 (.ofRecord (it'.inodeRecord hugeFileDevice.sb 1)) 1 256) 0
          = false
        ∧ lfuFilterTier0 f (lfuRecFromDor 1 { dorFid := fid, dorAttr := la }) 0 = true :=
  ⟨_, _, _, _, rfl, by decide, by decide, by decide, rfl, by decide, by decide⟩

/-- An ordinary file is seen alike, and filtered alike. -/
theorem scanners_agree_iff_present
    : ∃ fid la it',
        osdIitIgetRaw (sampleDevice 1700000000 0) sampleIt 1 = (.found fid la, it')
        ∧ Tier0Agree
            (lfuExtractTier0
              (.ofRecord (it'.inodeRecord (sampleDevice 1700000000 0).sb 1)) 1 256)
            (lfuRecFromDor 1 { dorFid := fid, dorAttr := la }) := by
  have found
      : osdIitIgetRaw (sampleDevice 1700000000 0) sampleIt 1 = (.found _ _, _) :=
    rfl
  exact ⟨_, _, _, found,
    (scanners_agree_iff found).1.mpr ⟨by decide, by decide, .inr (.inr (by decide))⟩⟩

end LfuScan.Osd
