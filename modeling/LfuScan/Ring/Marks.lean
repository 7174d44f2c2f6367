import LfuScan.Ring.FilterObject

/-! The tags of a record on the wire: what the filter marks, and what filling in the decoded
attributes keeps.
-/

namespace LfuScan.Ring

open LfuScan.Lustre LfuScan.Filter

/-- Filling in the decoded attributes leaves the rest of the record alone. -/
structure SameHeader (left right : LfuWireRec) : Prop where
  seq : left.wrFidSeq = right.wrFidSeq
  oid : left.wrFidOid = right.wrFidOid
  ver : left.wrFidVer = right.wrFidVer
  compat : left.wrLmaCompat = right.wrLmaCompat
  incompat : left.wrLmaIncompat = right.wrLmaIncompat
  unknown : left.wrLfu &&& lfuWrUnknown = right.wrLfu &&& lfuWrUnknown

theorem SameHeader.trans {left middle right : LfuWireRec} (first : SameHeader left middle)
    (second : SameHeader middle right)
    : SameHeader left right :=
  ⟨first.seq.trans second.seq, first.oid.trans second.oid, first.ver.trans second.ver,
    first.compat.trans second.compat, first.incompat.trans second.incompat,
    first.unknown.trans second.unknown⟩

theorem and_unknown_or {bits flag : UInt32} (apart : flag &&& lfuWrUnknown = 0)
    : (bits ||| flag) &&& lfuWrUnknown = bits &&& lfuWrUnknown := by
  rw [or_and_mask, apart, UInt32.or_zero]

theorem fillSom_header (wr : LfuWireRec) (t1 : LfuTier1) : SameHeader (fillSom wr t1) wr := by
  unfold fillSom
  split
  · exact ⟨rfl, rfl, rfl, rfl, rfl, and_unknown_or (by decide)⟩
  · exact ⟨rfl, rfl, rfl, rfl, rfl, rfl⟩

theorem fillLov_header (wr : LfuWireRec) (t1 : LfuTier1) : SameHeader (fillLov wr t1) wr := by
  unfold fillLov
  split
  · exact ⟨rfl, rfl, rfl, rfl, rfl, and_unknown_or (by decide)⟩
  · exact ⟨rfl, rfl, rfl, rfl, rfl, rfl⟩

theorem fillLmv_header (wr : LfuWireRec) (t1 : LfuTier1) : SameHeader (fillLmv wr t1) wr := by
  unfold fillLmv
  split
  · exact ⟨rfl, rfl, rfl, rfl, rfl, and_unknown_or (by decide)⟩
  · exact ⟨rfl, rfl, rfl, rfl, rfl, rfl⟩

/-- What survives the wire of the parts that classification and the tag depend on. -/
theorem lfuKmdtRec_fill (oid : UInt64) (dor : DtOtableRec) (rec : LfuRec) (bits : UInt32)
    : (lfuKmdtRec (lfuFillRec oid dor rec bits)).fid = dor.dorFid
      ∧ (lfuKmdtRec (lfuFillRec oid dor rec bits)).lmaCompat = rec.lmaCompat
      ∧ (lfuKmdtRec (lfuFillRec oid dor rec bits)).lmaIncompat = rec.lmaIncompat
      ∧ (lfuKmdtRec (lfuFillRec oid dor rec bits)).unknown
        = (bits &&& lfuWrUnknown != 0) := by
  have header
      : SameHeader (lfuFillRec oid dor rec bits)
          {
            wrFidSeq := dor.dorFid.fSeq
            wrFidOid := dor.dorFid.fOid
            wrFidVer := dor.dorFid.fVer
            wrLmaCompat := rec.lmaCompat
            wrLmaIncompat := rec.lmaIncompat
            wrLfu := bits
          } := by
    simp only [lfuFillRec]
    split
    · exact (fillLmv_header _ _).trans ((fillLov_header _ _).trans ((fillSom_header _ _).trans
        ⟨rfl, rfl, rfl, rfl, rfl, rfl⟩))
    · exact ⟨rfl, rfl, rfl, rfl, rfl, rfl⟩
  refine ⟨?_, header.compat, header.incompat, ?_⟩
  · simp only [lfuKmdtRec, header.seq, header.oid, header.ver]
  · simp only [lfuKmdtRec, header.unknown]

theorem judgeGathered_marks (kernel : Platform) (f : LfuFilter) (rec : LfuRec) (g : Gathered)
    (m : LfuMatch) (judged : (judgeGathered kernel f rec g).verdict = .ok m)
    : ((judgeGathered kernel f rec g).lfuBits &&& lfuWrUnknown != 0) = (m == .unknown) := by
  have external : (if g.ext then lfuWrXaExternal else 0) &&& lfuWrUnknown = 0 := by
    split <;> decide
  rw [judgeGathered_eq] at judged ⊢
  cases judged
  simp only [or_and_mask, external]
  cases gatheredMatch kernel f rec g <;> decide

/-- The filter leaves the record's flags alone, and marks exactly the undecided ones. -/
theorem lfuFilterObject_marks (kernel : Platform) (r : LfuRing) (reply : XattrName → XaReply)
    (rec : LfuRec) (now : Int)
    : (lfuFilterObject kernel r reply rec now).record.lmaCompat = rec.lmaCompat
      ∧ (lfuFilterObject kernel r reply rec now).record.lmaIncompat = rec.lmaIncompat
      ∧ ∀ m, (lfuFilterObject kernel r reply rec now).verdict = .ok m →
          ((lfuFilterObject kernel r reply rec now).lfuBits &&& lfuWrUnknown != 0)
            = (m == .unknown) := by
  have unmarked : ((0 : UInt32) &&& lfuWrUnknown != 0) = false := by decide
  have way := lfuFilterObject_exit kernel r reply rec now
  generalize lfuFilterObject kernel r reply rec now = result at way ⊢
  cases way with
  | passed | rejected =>
      refine ⟨rfl, rfl, ?_⟩
      rintro m ⟨⟩
      exact unmarked
  | stuck => exact ⟨rfl, rfl, nofun⟩
  | judged needs f g =>
      refine ⟨?_, ?_, judgeGathered_marks kernel f rec g⟩
      · rw [judgeGathered_eq]
        rfl
      · rw [judgeGathered_eq]
        rfl

end LfuScan.Ring
