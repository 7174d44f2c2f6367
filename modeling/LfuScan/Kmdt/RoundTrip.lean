import LfuScan.Kmdt.Pushdown

/-! The wire as a round trip: the record the core works on after a trip through the ring
agrees with the one the kernel judged, on everything that is classified, tagged or printed.
-/

namespace LfuScan.Kmdt

open LfuScan.Lustre LfuScan.Filter LfuScan.Ring LfuScan.Core

/-- The evaluator's record of an object, with the attributes that were decoded into it, if
any were.
-/
def kernelRecord (oid : UInt64) (dor : DtOtableRec) (decoded : Option LfuEas) : LfuRec :=
  { lfuRecFromDor oid dor with t1 := lfuEaDecode decoded, t1Valid := decoded.isSome }

/-- The bits a verdict puts on the wire. -/
def verdictBits (unknown external : Bool) : UInt32 :=
  (if external then lfuWrXaExternal else 0) ||| if unknown then lfuWrUnknown else 0

/-- The producer pushes such records, with such bits. -/
theorem lfuFilterObject_pushes (kernel : Platform) (r : LfuRing) (reply : XattrName → XaReply)
    (oid : UInt64) (dor : DtOtableRec) (now : Int)
    : ∃ decoded unknown external,
        (lfuFilterObject kernel r reply (lfuRecFromDor oid dor) now).record
          = kernelRecord oid dor decoded
        ∧ (lfuFilterObject kernel r reply (lfuRecFromDor oid dor) now).lfuBits
          = verdictBits unknown external := by
  have way := lfuFilterObject_exit kernel r reply (lfuRecFromDor oid dor) now
  generalize lfuFilterObject kernel r reply (lfuRecFromDor oid dor) now = result at way ⊢
  cases way with
  | passed | rejected | stuck => exact ⟨none, false, false, rfl, rfl⟩
  | judged needs f g =>
      rw [judgeGathered_eq]
      exact ⟨some g.attributes,
        decide (gatheredMatch kernel f (lfuRecFromDor oid dor) g = .unknown), g.ext, rfl,
        by simp [verdictBits]⟩

-----------------------------------------------------------------------------------------
-- There and back
-----------------------------------------------------------------------------------------

/-- The flag of an attribute on the wire. -/
def mark (present : Bool) (flag : UInt32) : UInt32 := if present then flag else 0

/-- The five bits do not run into each other. -/
theorem marks_apart (unknown external som lov lmv : Bool)
    : let bits :=
        verdictBits unknown external ||| mark som lfuWrHaveSom ||| mark lov lfuWrHaveLov
          ||| mark lmv lfuWrHaveLmv
      (bits &&& lfuWrUnknown != 0) = unknown
      ∧ (bits &&& lfuWrXaExternal != 0) = external
      ∧ (bits &&& lfuWrHaveSom != 0) = som
      ∧ (bits &&& lfuWrHaveLov != 0) = lov
      ∧ (bits &&& lfuWrHaveLmv != 0) = lmv
      ∧ (bits &&& (lfuWrHaveSom ||| lfuWrHaveLov ||| lfuWrHaveLmv) != 0)
        = (som || lov || lmv) := by
  revert unknown external som lov lmv
  decide

/-- A record whose attributes were not decoded holds none. -/
def Undecoded (record : LfuRec) : Prop := record.t1Valid = false → record.t1 = {}

theorem kernelRecord_undecoded (oid : UInt64) (dor : DtOtableRec) (decoded : Option LfuEas)
    : Undecoded (kernelRecord oid dor decoded) := by
  cases decoded with
  | none => exact fun _ => rfl
  | some eas => exact nofun

theorem lfuKmdtRec_undecoded (wr : LfuWireRec) : Undecoded (lfuKmdtRec wr) :=
  fun invalid => if_neg (ne_true_of_eq_false invalid)

/-- What `lfu_fill_rec` sends of the decoded attributes. -/
theorem lfuFillRec_groups (oid : UInt64) (dor : DtOtableRec) {record : LfuRec}
    (bits : UInt32) (undecoded : Undecoded record)
    : let wr := lfuFillRec oid dor record bits
      wr.wrLfu
        = (bits ||| mark record.t1.haveSom lfuWrHaveSom ||| mark record.t1.haveLov lfuWrHaveLov
            ||| mark record.t1.haveLmv lfuWrHaveLmv)
      ∧ (record.t1.haveSom = true →
          wr.wrSomValid = record.t1.somValid ∧ wr.wrSomSize = record.t1.somSize
          ∧ wr.wrSomBlocks = record.t1.somBlocks)
      ∧ (record.t1.haveLov = true →
          wr.wrStripeCount = record.t1.stripeCount ∧ wr.wrStripeSize = record.t1.stripeSize
          ∧ wr.wrPool = record.t1.pool)
      ∧ (record.t1.haveLmv = true →
          wr.wrLmvCount = record.t1.lmvCount ∧ wr.wrLmvHash = record.t1.lmvHash) := by
  cases valid : record.t1Valid with
  | false => simp [lfuFillRec, valid, undecoded valid, mark]
  | true =>
      simp only [lfuFillRec, valid, if_true]
      cases som : record.t1.haveSom <;> cases lov : record.t1.haveLov
        <;> cases lmv : record.t1.haveLmv
        <;> simp [fillSom, fillLov, fillLmv, mark, som, lov, lmv]

/-- Everything but the decoded attributes and the two tags comes straight from the
iterator's record.
-/
theorem lfuKmdtRec_inode (oid : UInt64) (dor : DtOtableRec) (record : LfuRec) (bits : UInt32)
    : let arrived := lfuKmdtRec (lfuFillRec oid dor record bits)
      arrived
        = {
            lfuRecFromDor oid dor with
            flags := dor.dorAttr.laFlags &&& lfuAttrAll
            lmaCompat := record.lmaCompat
            lmaIncompat := record.lmaIncompat
            t1 := arrived.t1
            t1Valid := arrived.t1Valid
            unknown := arrived.unknown
            hasExtEa := arrived.hasExtEa
          } := by
  simp only [lfuFillRec]
  split
  · unfold fillLmv
    split <;> unfold fillLov <;> split <;> unfold fillSom <;> split <;> rfl
  · rfl

/-- The decoded attributes that the wire carries. -/
structure SameGroups (t1 back : LfuTier1) : Prop where
  som : back.toTier1Som = t1.toTier1Som
  haveLov : back.haveLov = t1.haveLov
  lov : t1.haveLov = true →
    back.stripeCount = t1.stripeCount ∧ back.stripeSize = t1.stripeSize
    ∧ back.pool = t1.pool
  lmv : back.toTier1Lmv = t1.toTier1Lmv

/-- The two records agree on everything that is classified, filtered or printed. -/
structure Carried (record back : LfuRec) : Prop where
  fid : back.fid = record.fid
  id : back.id = record.id
  mode : back.mode = record.mode
  nlink : back.nlink = record.nlink
  uid : back.uid = record.uid
  gid : back.gid = record.gid
  projid : back.projid = record.projid
  size : back.size = record.size
  blocks : back.blocks = record.blocks
  atime : back.atime = record.atime
  mtime : back.mtime = record.mtime
  ctime : back.ctime = record.ctime
  crtime : back.crtime = record.crtime
  attrs : back.flags &&& lfuAttrAll = record.flags &&& lfuAttrAll
  lmaCompat : back.lmaCompat = record.lmaCompat
  lmaIncompat : back.lmaIncompat = record.lmaIncompat
  groups : SameGroups record.t1 back.t1

theorem wireSom_filled {wr : LfuWireRec} {t1 : LfuTier1} (decoded : Decoded t1)
    (marked : (wr.wrLfu &&& lfuWrHaveSom != 0) = t1.haveSom)
    (filled : t1.haveSom = true →
      wr.wrSomValid = t1.somValid ∧ wr.wrSomSize = t1.somSize ∧ wr.wrSomBlocks = t1.somBlocks)
    : wireSom wr = t1.toTier1Som := by
  unfold wireSom
  rw [marked]
  cases have_ : t1.haveSom with
  | false => exact (decoded.som have_).symm
  | true =>
      obtain ⟨valid, size, blocks⟩ := filled have_
      rw [if_pos rfl, valid, size, blocks, ← have_]

theorem wireLmv_filled {wr : LfuWireRec} {t1 : LfuTier1} (decoded : Decoded t1)
    (marked : (wr.wrLfu &&& lfuWrHaveLmv != 0) = t1.haveLmv)
    (filled : t1.haveLmv = true → wr.wrLmvCount = t1.lmvCount ∧ wr.wrLmvHash = t1.lmvHash)
    : wireLmv wr = t1.toTier1Lmv := by
  unfold wireLmv
  rw [marked]
  cases have_ : t1.haveLmv with
  | false => exact (decoded.lmv have_).symm
  | true =>
      obtain ⟨count, hash⟩ := filled have_
      rw [if_pos rfl, count, hash, ← have_]

theorem wireLov_filled {wr : LfuWireRec} {t1 : LfuTier1} (decoded : Decoded t1)
    (marked : (wr.wrLfu &&& lfuWrHaveLov != 0) = t1.haveLov)
    (filled : t1.haveLov = true →
      wr.wrStripeCount = t1.stripeCount ∧ wr.wrStripeSize = t1.stripeSize
      ∧ wr.wrPool = t1.pool)
    : (wireLov wr).haveLov = t1.haveLov
      ∧ (t1.haveLov = true →
          (wireLov wr).stripeCount = t1.stripeCount ∧ (wireLov wr).stripeSize = t1.stripeSize
          ∧ (wireLov wr).pool = t1.pool) := by
  unfold wireLov
  rw [marked]
  cases have_ : t1.haveLov with
  | false => exact ⟨rfl, nofun⟩
  | true =>
      obtain ⟨count, size, pool⟩ := filled have_
      -- the reader's own terminator falls on the one the decoder left
      have ended : t1.pool.setIfInBounds 15 0 = t1.pool := by
        refine Vector.ext fun i inside => ?_
        rw [Vector.getElem_setIfInBounds]
        split
        · rename_i last
          subst last
          exact decoded.pool.symm
        · rfl
      exact ⟨rfl, fun _ => ⟨count, size, by rw [← ended, ← pool]; rfl⟩⟩

/-- Decoded attributes and tags survive the wire, also when there are none. -/
theorem lfuKmdtRec_groups (oid : UInt64) (dor : DtOtableRec) {record : LfuRec}
    (undecoded : Undecoded record) (clear : Decoded record.t1) (unknown external : Bool)
    : let arrived := lfuKmdtRec (lfuFillRec oid dor record (verdictBits unknown external))
      SameGroups record.t1 arrived.t1 ∧ arrived.unknown = unknown
      ∧ arrived.hasExtEa = external := by
  obtain ⟨bits, som, lov, lmv⟩ :=
    lfuFillRec_groups oid dor (verdictBits unknown external) undecoded
  generalize lfuFillRec oid dor record (verdictBits unknown external) = wr
    at bits som lov lmv ⊢
  generalize record.t1 = t1 at clear bits som lov lmv ⊢
  obtain ⟨tag, outside, markSom, markLov, markLmv, present⟩ :=
    marks_apart unknown external t1.haveSom t1.haveLov t1.haveLmv
  rw [← bits] at tag outside markSom markLov markLmv present
  refine ⟨?_, tag, outside⟩
  have sameSom := wireSom_filled clear markSom som
  have sameLov := wireLov_filled clear markLov lov
  have sameLmv := wireLmv_filled clear markLmv lmv
  simp only [lfuKmdtRec, present]
  cases any : t1.haveSom || t1.haveLov || t1.haveLmv with
  | true => exact ⟨sameSom, sameLov.1, sameLov.2, sameLmv⟩
  | false =>
      simp only [Bool.or_eq_false_iff] at any
      obtain ⟨⟨noSom, noLov⟩, noLmv⟩ := any
      exact ⟨(clear.som noSom).symm, noLov.symm, fun have_ => by simp [noLov] at have_,
        (clear.lmv noLmv).symm⟩

/-- Decoding once more changes nothing: the stream brings no raw attributes. -/
theorem decodeObject_undecoded (cx : LfuCtx) {back : LfuRec} (undecoded : Undecoded back)
    : Undecoded (decodeObject cx back none).2
      ∧ ∃ valid, (decodeObject cx back none).2 = { back with t1Valid := valid } := by
  rw [decodeObject_rec]
  split
  · rename_i decodes
    simp only [Bool.and_eq_true, Bool.not_eq_true'] at decodes
    refine ⟨nofun, true, ?_⟩
    have empty : back.t1 = lfuEaDecode none := undecoded decodes.2
    rw [← empty]
  · exact ⟨undecoded, back.t1Valid, rfl⟩

/-- A printed line depends on the carried parts and on the tags. -/
theorem lfuEmit_carried {record back : LfuRec} (carried : Carried record back)
    (before : Undecoded record) (after : Undecoded back)
    (external : back.hasExtEa = record.hasExtEa) (cx : LfuCtx)
    (diagnostic : Option LfuClass) (tag : Bool)
    : lfuEmit cx diagnostic back tag = lfuEmit cx diagnostic record tag := by
  have shown (rec : LfuRec) (undecoded : Undecoded rec)
      : (rec.t1Valid && rec.t1.haveSom) = rec.t1.haveSom
        ∧ (rec.t1Valid && rec.t1.haveLov) = rec.t1.haveLov := by
    cases valid : rec.t1Valid with
    | true => exact ⟨rfl, rfl⟩
    | false =>
        rw [undecoded valid]
        exact ⟨rfl, rfl⟩
  obtain ⟨backSom, backLov⟩ := shown back after
  obtain ⟨recordSom, recordLov⟩ := shown record before
  have layout
      : (if back.t1.haveLov then
          some (back.t1.stripeCount, back.t1.stripeSize,
            back.t1.pool.toList.takeWhile (· != 0))
        else none)
        = if record.t1.haveLov then
            some (record.t1.stripeCount, record.t1.stripeSize,
              record.t1.pool.toList.takeWhile (· != 0))
          else none := by
    rw [carried.groups.haveLov]
    split
    · rename_i have_
      obtain ⟨count, size, pool⟩ := carried.groups.lov have_
      rw [count, size, pool]
    · rfl
  rw [carried.groups.som] at backSom
  simp only [lfuEmit, backSom, backLov, recordSom, recordLov, layout, carried.groups.som,
    carried.fid, carried.id, carried.mode, carried.nlink, carried.uid, carried.gid,
    carried.projid, carried.size, carried.blocks, carried.atime, carried.mtime,
    carried.lmaIncompat, external]

/-- The wire round trip. Whatever was decoded, the record the core works on agrees with the
one the kernel judged; it has the same class, carries the verdict, and prints the same line,
in which only the mark of an external attribute comes from the wire itself.
-/
theorem wire_round_trip (cx : LfuCtx) (oid : UInt64) (dor : DtOtableRec)
    (decoded : Option LfuEas) (unknown external : Bool)
    : let record := kernelRecord oid dor decoded
      let wr := lfuFillRec oid dor record (verdictBits unknown external)
      let back := (decodeObject cx (lfuKmdtRec wr) none).2
      Carried record back
      ∧ back.unknown = unknown
      ∧ (∀ haveLma, lfuClassify back haveLma = lfuClassify record haveLma)
      ∧ ∀ printer diagnostic tag,
          lfuEmit printer diagnostic back tag
            = lfuEmit printer diagnostic { record with hasExtEa := external } tag := by
  intro record wr back
  have before : Undecoded record := kernelRecord_undecoded oid dor decoded
  have inode := lfuKmdtRec_inode oid dor record (verdictBits unknown external)
  obtain ⟨groups, tag, outside⟩ :=
    lfuKmdtRec_groups oid dor before (lfuEaDecode_decoded decoded) unknown external
  obtain ⟨after, valid, arrived⟩ := decodeObject_undecoded cx (lfuKmdtRec_undecoded wr)
  have masked : dor.dorAttr.laFlags &&& lfuAttrAll &&& lfuAttrAll
      = dor.dorAttr.laFlags &&& lfuAttrAll := by
    rw [UInt32.and_assoc, UInt32.and_self]
  change back = _ at arrived
  have carried : Carried record back := by
    rw [arrived]
    exact {
      fid := (congrArg LfuRec.fid inode :)
      id := (congrArg LfuRec.id inode :)
      mode := (congrArg LfuRec.mode inode :)
      nlink := (congrArg LfuRec.nlink inode :)
      uid := (congrArg LfuRec.uid inode :)
      gid := (congrArg LfuRec.gid inode :)
      projid := (congrArg LfuRec.projid inode :)
      size := (congrArg LfuRec.size inode :)
      blocks := (congrArg LfuRec.blocks inode :)
      atime := (congrArg LfuRec.atime inode :)
      mtime := (congrArg LfuRec.mtime inode :)
      ctime := (congrArg LfuRec.ctime inode :)
      crtime := (congrArg LfuRec.crtime inode :)
      attrs := (congrArg (·.flags &&& lfuAttrAll) inode :).trans masked
      lmaCompat := (congrArg LfuRec.lmaCompat inode :)
      lmaIncompat := (congrArg LfuRec.lmaIncompat inode :)
      groups
    }
  have marked : back.unknown = unknown ∧ back.hasExtEa = external := by
    rw [arrived]
    exact ⟨tag, outside⟩
  refine ⟨carried, marked.1, ?_, ?_⟩
  · exact lfuClassify_congr carried.fid carried.lmaCompat carried.lmaIncompat
  · have printed : Carried { record with hasExtEa := external } back :=
      { carried with }
    exact lfuEmit_carried printed before after marked.2

end LfuScan.Kmdt
