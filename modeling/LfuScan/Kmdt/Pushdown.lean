import LfuScan.Core.Emission
import LfuScan.Filter.Compiled
import LfuScan.Kmdt.Backend
import LfuScan.Ring.Marks
import LfuScan.Ring.Unreadable

/-! Filter pushdown. An object goes through the kernel's filter, the wire and the pushdown
branch of the core, or through the prefilter, the decoders and the filter of the core; both
ways emit it alike.
-/

namespace LfuScan.Kmdt

open LfuScan.Lustre LfuScan.Filter LfuScan.Ring LfuScan.Core LfuScan.Foundations

/-- The record the producer pushes for an object, if it does. -/
def pushedRecord (kernel : Platform) (r : LfuRing) (now : Int) (oid : UInt64)
    (dor : DtOtableRec) (reply : XattrName → XaReply)
    : Option LfuWireRec :=
  match afterFilter r.emitUnknown oid dor
    (lfuFilterObject kernel r reply (lfuRecFromDor oid dor) now) with
  | .stallTest wr => some wr
  | _ => none

/-- The kernel's way: what the core makes of the record, if one was pushed. -/
def kernelPath (kernel user : Platform) (r : LfuRing) (cx : LfuCtx) (oid : UInt64)
    (dor : DtOtableRec) (reply : XattrName → XaReply)
    : LfuCtx × List Line :=
  match pushedRecord kernel r cx.now oid dor reply with
  | none => (cx, [])
  | some wr => visitEntry user cx (kmdtVisit wr)

/-- The two ways a negotiation succeeds. -/
theorem lfuKmdtNegotiate_agreed {params : RingParams} {r : LfuRing} {o : LfuOpts}
    {copied memory : Bool} {mem : AllocReply}
    (agreed : (lfuKmdtNegotiate params r o copied memory mem).1 = 0)
    : (lfuFilterActive o.filter = false
        ∧ (lfuKmdtNegotiate params r o copied memory mem).2 = r)
      ∨ (lfuFilterActive o.filter = true
        ∧ (lfuRingSetFilter r (some (filterPayload o)) mem).1 = 0
        ∧ (lfuKmdtNegotiate params r o copied memory mem).2
          = (lfuRingSetFilter r (some (filterPayload o)) mem).2) := by
  have fails : (-1 : Int) ≠ 0 := by decide
  cases copied with
  | false => exact absurd agreed fails
  | true =>
      have info : lfuRingIoctl params r (.info true) = (0, r, .info (lfuRingInfo params r)) :=
        rfl
      unfold lfuKmdtNegotiate at agreed ⊢
      rw [info] at agreed ⊢
      simp only at agreed ⊢
      split at agreed
      · exact absurd agreed fails
      split at agreed
      · exact absurd agreed fails
      rename_i version capacity
      simp only [version, capacity, Bool.false_eq_true, if_false]
      split at agreed
      · rename_i inactive
        exact .inl ⟨by simpa using inactive, by simp only [inactive, if_true]⟩
      rename_i active
      split at agreed
      · exact absurd agreed fails
      split at agreed
      · exact absurd agreed fails
      split at agreed
      · exact absurd agreed fails
      split at agreed
      · exact absurd agreed fails
      rename_i supplied attrs memory accepted
      refine .inr ⟨by simpa using active, by simpa [lfuRingIoctl] using accepted, ?_⟩
      simp only [active, supplied, attrs, memory, accepted, Bool.false_eq_true, if_false]
      rfl

/-- After a negotiation that succeeded the kernel holds the scan's filter, or none if there
is nothing to filter.
-/
theorem lfuKmdtNegotiate_installed {params : RingParams} {r : LfuRing} {o : LfuOpts}
    {copied memory : Bool} {mem : AllocReply} (bare : r.filter = none)
    (agreed : (lfuKmdtNegotiate params r o copied memory mem).1 = 0)
    : if lfuFilterActive o.filter then
        (lfuKmdtNegotiate params r o copied memory mem).2.filter = some (filterPayload o)
        ∧ (lfuKmdtNegotiate params r o copied memory mem).2.emitUnknown = o.emitUnknown
      else
        (lfuKmdtNegotiate params r o copied memory mem).2.filter = none := by
  rcases lfuKmdtNegotiate_agreed agreed with ⟨inactive, same⟩ | ⟨active, accepted, same⟩
  · rw [inactive, same]
    exact bare
  · obtain ⟨filter, emitUnknown⟩ := lfuRingSetFilter_installed accepted
    rw [active, same]
    refine ⟨filter, emitUnknown.trans ?_⟩
    cases flag : o.emitUnknown with
    | true => simp [filterPayload, flag, lfuFilterEmitUnknown]
    | false => simp [filterPayload, flag]

/-- The two low flags of the LMA a device scanner and the kernel both understand. -/
def cleanLma (rec : LfuRec) : Prop :=
  rec.lmaCompat = 0 ∧ rec.lmaIncompat &&& ~~~(lmaiOrphan ||| lmaiEncrypt) = 0

theorem lfuClassify_of_clean {rec : LfuRec} (clean : cleanLma rec)
    : lfuClassify rec true
      = if fidSeqIsIdif rec.fid.fSeq then
          .ostObj
        else if fidSeqIsInternal rec.fid.fSeq then
          .internal
        else if fidSeqIsNamespaceVisible rec.fid.fSeq then
          .visible
        else
          .internal := by
  obtain ⟨compat, incompat⟩ := clean
  have bit (mask : UInt32) (outside : ~~~(lmaiOrphan ||| lmaiEncrypt) &&& mask = mask)
      : rec.lmaIncompat &&& mask = 0 := by
    rw [← outside, ← UInt32.and_assoc, incompat, UInt32.zero_and]
  have supported := bit (~~~lmaIncompatSupp) (by decide)
  have agent := bit lmaiAgent (by decide)
  simp [lfuClassify, compat, supported, agent]

theorem lfuRecFromDor_clean (oid : UInt64) (dor : DtOtableRec)
    : cleanLma (lfuRecFromDor oid dor) := by
  refine ⟨rfl, ?_⟩
  simp only [lfuRecFromDor]
  split <;> split <;> decide

section Agreement

variable {kernel user : Platform} {ring : LfuRing} {o : LfuOpts} {cx : LfuCtx} {now : Int}
  {oid : UInt64} {dor : DtOtableRec} {reply : XattrName → XaReply} {rec : LfuRec}
  {xattrs eas : LfuEas}

/-- The class depends on the FID and the flags of the LMA only. -/
theorem lfuClassify_congr {left right : LfuRec} (fid : left.fid = right.fid)
    (compat : left.lmaCompat = right.lmaCompat)
    (incompat : left.lmaIncompat = right.lmaIncompat) (haveLma : Bool)
    : lfuClassify left haveLma = lfuClassify right haveLma := by
  simp only [lfuClassify, fid, compat, incompat]

/-- In the pushdown branch the record itself carries the verdict. -/
theorem pipelineVerdict_pushdown (pushdown : cx.ops.pushdown = true)
    : pipelineVerdict user cx rec none = if rec.unknown then .unknown else .matched := by
  have tag : (decodeObject cx rec none).2.unknown = rec.unknown := by
    rw [decodeObject_rec]
    split <;> rfl
  simp only [pipelineVerdict, lfuPrefilter_survives, objectVerdict, pushdown, Bool.or_true,
    Bool.true_or, if_true, tag]

/-- A pushed record is emitted with the tag the kernel gave it, if its class is shown. -/
theorem visitEntry_pushed {bits : UInt32} {record : LfuRec} (pushdown : cx.ops.pushdown = true)
    (seq : dor.dorFid.fSeq ≠ 0) (fid : rec.fid = dor.dorFid)
    (compat : record.lmaCompat = rec.lmaCompat)
    (incompat : record.lmaIncompat = rec.lmaIncompat)
    : emission cx (visitEntry user cx (kmdtVisit (lfuFillRec oid dor record bits)))
      = if hiddenClass cx.o (lfuClassify rec true) then
          (0, [])
        else
          tagged cx.o (bits &&& lfuWrUnknown != 0) := by
  obtain ⟨wireFid, wireCompat, wireIncompat, tag⟩ := lfuKmdtRec_fill oid dor record bits
  have haveLma : ((lfuKmdtRec (lfuFillRec oid dor record bits)).fid.fSeq != 0) = true := by
    rw [wireFid]
    exact bne_iff_ne.mpr seq
  have class_ : lfuClassify (lfuKmdtRec (lfuFillRec oid dor record bits)) true
      = lfuClassify rec true :=
    lfuClassify_congr (wireFid.trans fid.symm) (wireCompat.trans compat)
      (wireIncompat.trans incompat) true
  have uncounted
      : ({ cx with st := lfuStatsMerge cx.st { seen := 1 } } : LfuCtx).st.emitted
        = cx.st.emitted :=
    UInt64.add_zero _
  have verdict
      : pipelineVerdict user { cx with st := lfuStatsMerge cx.st { seen := 1 } }
          (lfuKmdtRec (lfuFillRec oid dor record bits)) none
        = _ :=
    pipelineVerdict_pushdown pushdown
  simp only [visitEntry, kmdtVisit, haveLma]
  rw [← emission_congr uncounted, visitObject_emission, class_, verdict, tag]
  simp only [pushdown, Bool.true_or]
  cases (bits &&& lfuWrUnknown != 0) <;> rfl

/-- The kernel's way emits an object as the kernel's verdict says. -/
theorem kernelPath_emission {m : LfuMatch} (pushdown : cx.ops.pushdown = true)
    (seq : dor.dorFid.fSeq ≠ 0)
    (judged
      : (lfuFilterObject kernel ring reply (lfuRecFromDor oid dor) cx.now).verdict = .ok m)
    : emission cx (kernelPath kernel user ring cx oid dor reply)
      = if hiddenClass cx.o (lfuClassify (lfuRecFromDor oid dor) true) then
          (0, [])
        else
          verdictEmission cx.o ring.emitUnknown m := by
  obtain ⟨compat, incompat, marks⟩ :=
    lfuFilterObject_marks kernel ring reply (lfuRecFromDor oid dor) cx.now
  have mark := marks m judged
  have pushed
      : emission cx (visitEntry user cx (kmdtVisit (lfuFillRec oid dor
          (lfuFilterObject kernel ring reply (lfuRecFromDor oid dor) cx.now).record
          (lfuFilterObject kernel ring reply (lfuRecFromDor oid dor) cx.now).lfuBits)))
        = _ :=
    visitEntry_pushed pushdown seq rfl compat incompat
  rw [mark] at pushed
  unfold kernelPath pushedRecord afterFilter
  rw [judged]
  cases m with
  | noMatch => simpa only [verdictEmission, ite_self] using emission_none rfl
  | matched => exact pushed
  | unknown =>
      cases flag : ring.emitUnknown with
      | true => exact pushed
      | false =>
          simpa only [verdictEmission, Bool.false_eq_true, if_false, ite_self]
            using emission_none rfl

/-- The verdict of the device scanners' pipeline on a record fresh from the device. -/
theorem pipelineVerdict_device (device : cx.ops.pushdown = false)
    (undecoded : rec.t1Valid = false) (needs : cx.needs = cx.o.filter.needs)
    : pipelineVerdict user cx rec (some eas)
      = if lfuFilterActive cx.o.filter && !lfuFilterTier0 cx.o.filter rec cx.now then
          .noMatch
        else if cx.o.filter.needs = 0 then
          .matched
        else
          .ofKleene (tier1Answer user cx.o.filter rec cx.now eas) := by
  have survives : (lfuPrefilter cx rec).1
      = !(lfuFilterActive cx.o.filter && !lfuFilterTier0 cx.o.filter rec cx.now) := by
    rw [lfuPrefilter_survives, device, Bool.or_false, Bool.not_and, Bool.not_not]
  have judged : objectVerdict user cx (decodeObject cx rec (some eas)).2 (some eas)
      = if cx.o.filter.needs = 0 then
          .matched
        else
          .ofKleene (tier1Answer user cx.o.filter rec cx.now eas) := by
    simp only [objectVerdict, device, Bool.false_eq_true, if_false, needs, bne_iff_ne, ne_eq,
      ite_not]
    split
    · rfl
    · rename_i some_
      rw [decodeObject_rec, needs, undecoded, if_pos (by simpa using some_),
        lfuFilterTier1_answer cx.o.filter cx.now, tier1Answer_decoded]
  rw [pipelineVerdict, survives, judged]
  cases lfuFilterActive cx.o.filter && !lfuFilterTier0 cx.o.filter rec cx.now <;> rfl

/-- A filter that is not active has nothing to judge and demands nothing. -/
theorem inactive_needs {ns : NameService} {f : LfuFilter} (compiled : Compiled ns f)
    (inactive : lfuFilterActive f = false)
    : f.needs = 0 := by
  have none_ : f.preds = [] := by
    have count : f.n.toNat = 0 := by
      unfold lfuFilterActive at inactive
      simp only [decide_eq_false_iff_not] at inactive
      omega
    simp [LfuFilter.preds, count]
  rw [compiled.wellCompiled.needs, none_]
  rfl

/-- Both ways reach the same verdict. -/
theorem lfuFilterObject_agrees {ns : NameService} (compiled : Compiled ns cx.o.filter)
    (device : cx.ops.pushdown = false) (undecoded : rec.t1Valid = false)
    (needs : cx.needs = cx.o.filter.needs) {krec : LfuRec} (same : SameFields rec krec)
    (alike : ∀ p ∈ cx.o.filter.preds, SameGlob p user kernel) (served : Served reply xattrs)
    (fetched
      : ∀ name, needsHas cx.o.filter.needs name = true → eas.get name = xattrs.get name)
    (installed
      : if lfuFilterActive cx.o.filter then
          ring.filter = some (filterPayload cx.o)
        else
          ring.filter = none)
    : (lfuFilterObject kernel ring reply krec cx.now).verdict
      = .ok (pipelineVerdict user cx rec (some eas)) := by
  rw [pipelineVerdict_device device undecoded needs]
  cases active : lfuFilterActive cx.o.filter with
  | false =>
      rw [active] at installed
      simp only [Bool.false_eq_true, if_false] at installed
      simp only [lfuFilterObject, installed, Bool.false_and, Bool.false_eq_true, if_false,
        inactive_needs compiled active, if_true]
  | true =>
      rw [active] at installed
      simp only [if_true] at installed
      have cover := compiled.needsCover
      have answer : tier1Answer kernel cx.o.filter krec cx.now
            (replyEas cx.o.filter.needs reply)
          = tier1Answer user cx.o.filter rec cx.now eas := by
        rw [tier1Answer_replyEas cover served.ea, ← tier1Answer_alike same alike]
        exact (tier1Answer_congr cover fetched).symm
      have verdict : (lfuFilterObject kernel ring reply krec cx.now).verdict = _ :=
        (lfuFilterObject_verdict installed (served.supported _)).1
      simp only [filterPayload, served.not_tooLarge, answer, ← lfuFilterTier0_record same]
        at verdict
      rw [verdict]
      cases lfuFilterTier0 cx.o.filter rec cx.now <;> simp

/-- For every compiled filter, an object goes out the same way whether the kernel filters
it and the core passes it on, or a device scanner hands it to the core to filter: emitted or
not, and with the same tag.
-/
theorem pushdown_agrees {ns : NameService} {params : RingParams} {opened : LfuRing}
    {copied memory : Bool} {mem : AllocReply} {kernelOps deviceOps : LfuTargetOps}
    {kernelCx deviceCx : LfuCtx} (compiled : Compiled ns o.filter)
    (bare : opened.filter = none)
    (agreed : (lfuKmdtNegotiate params opened o copied memory mem).1 = 0)
    (filter : ring.filter = (lfuKmdtNegotiate params opened o copied memory mem).2.filter)
    (flag
      : ring.emitUnknown
        = (lfuKmdtNegotiate params opened o copied memory mem).2.emitUnknown)
    (kernelSide : kernelCx.base = workerCtx o kernelOps now)
    (deviceSide : deviceCx.base = workerCtx o deviceOps now)
    (pushdown : kernelOps.pushdown = true) (device : deviceOps.pushdown = false)
    (same : SameFields rec (lfuRecFromDor oid dor)) (fid : rec.fid = dor.dorFid)
    (seq : dor.dorFid.fSeq ≠ 0) (clean : cleanLma rec) (undecoded : rec.t1Valid = false)
    (alike : ∀ p ∈ o.filter.preds, SameGlob p user kernel) (served : Served reply xattrs)
    (fetched : ∀ name, needsHas o.filter.needs name = true → eas.get name = xattrs.get name)
    : emission kernelCx (kernelPath kernel user ring kernelCx oid dor reply)
      = emission deviceCx (visitObject user deviceCx rec true (some eas)) := by
  have kernelO : kernelCx.o = o := (congrArg LfuCtx.o kernelSide :)
  have kernelNow : kernelCx.now = now := (congrArg LfuCtx.now kernelSide :)
  have kernelPush : kernelCx.ops.pushdown = true :=
    (congrArg (fun cx => cx.ops.pushdown) kernelSide :).trans pushdown
  have deviceO : deviceCx.o = o := (congrArg LfuCtx.o deviceSide :)
  have deviceNow : deviceCx.now = now := (congrArg LfuCtx.now deviceSide :)
  have deviceNeeds : deviceCx.needs = deviceCx.o.filter.needs := by
    rw [deviceO]
    exact (congrArg LfuCtx.needs deviceSide :)
  have devicePush : deviceCx.ops.pushdown = false :=
    (congrArg (fun cx => cx.ops.pushdown) deviceSide :).trans device
  have installed := lfuKmdtNegotiate_installed bare agreed
  rw [← filter, ← flag] at installed
  have verdict
      : (lfuFilterObject kernel ring reply (lfuRecFromDor oid dor) kernelCx.now).verdict
        = .ok (pipelineVerdict user deviceCx rec (some eas)) := by
    rw [kernelNow, ← deviceNow]
    rw [← deviceO] at compiled alike fetched installed
    refine lfuFilterObject_agrees compiled devicePush undecoded deviceNeeds same alike served
      fetched ?_
    cases active : lfuFilterActive deviceCx.o.filter with
    | true =>
        rw [active] at installed
        exact installed.1
    | false =>
        rw [active] at installed
        exact installed
  have class_ : lfuClassify (lfuRecFromDor oid dor) true = lfuClassify rec true := by
    rw [lfuClassify_of_clean clean, lfuClassify_of_clean (lfuRecFromDor_clean oid dor), fid]
    rfl
  -- an inactive filter is never sent, and then nothing is undecided
  have wanted
      : verdictEmission o ring.emitUnknown (pipelineVerdict user deviceCx rec (some eas))
        = verdictEmission o o.emitUnknown
            (pipelineVerdict user deviceCx rec (some eas)) := by
    cases active : lfuFilterActive o.filter with
    | true =>
        rw [active] at installed
        rw [installed.2]
    | false =>
        have matched : pipelineVerdict user deviceCx rec (some eas) = .matched := by
          rw [pipelineVerdict_device devicePush undecoded deviceNeeds, deviceO, active,
            inactive_needs compiled active]
          rfl
        rw [matched]
        rfl
  rw [kernelPath_emission kernelPush seq verdict, visitObject_emission, class_, kernelO,
    deviceO, devicePush, Bool.false_or, wanted]

end Agreement

/-- Undecided objects are asked for, too. -/
def largeFiles : LfuOpts := { filter := largeFileFilter, emitUnknown := true }

/-- A striped file whose size only its OSTs know. -/
def stripedObject : DtOtableRec :=
  {
    dorFid := { fSeq := 0x200000401, fOid := 1 }
    dorAttr := { laMode := lfuSIfreg.toUInt32 }
  }

def onlyLayout : XattrName → XaReply
  | .lov => .value oneStripe false
  | _ => .error (-enodata)

theorem onlyLayout_served : Served onlyLayout { lov := some oneStripe } := by
  intro name
  cases name with
  | lov => exact ⟨false, rfl⟩
  | som | lmv | link => rfl

def sizedRing : LfuRing :=
  (lfuKmdtNegotiate fourSlots (lfuRingOpen fourSlots (some .ldiskfs) fun _ => {}) largeFiles
    true true allocAll).2

/-- Both ways emit the file with the tag. -/
theorem pushdown_agrees_striped
    : emission (workerCtx largeFiles { idLabel := [], pushdown := true } 0)
        (kernelPath exactNames exactNames sizedRing
          (workerCtx largeFiles { idLabel := [], pushdown := true } 0) 7 stripedObject
          onlyLayout)
        = (1, [true])
      ∧ emission (workerCtx largeFiles { idLabel := [] } 0)
          (visitObject exactNames (workerCtx largeFiles { idLabel := [] } 0)
            (lfuRecFromDor 7 stripedObject) true (some { lov := some oneStripe }))
        = (1, [true]) := by
  have agree
      : emission (workerCtx largeFiles { idLabel := [], pushdown := true } 0)
          (kernelPath exactNames exactNames sizedRing
            (workerCtx largeFiles { idLabel := [], pushdown := true } 0) 7 stripedObject
            onlyLayout)
        = emission (workerCtx largeFiles { idLabel := [] } 0)
            (visitObject exactNames (workerCtx largeFiles { idLabel := [] } 0)
              (lfuRecFromDor 7 stripedObject) true (some { lov := some oneStripe })) :=
    pushdown_agrees largeFileFilter_compiled rfl (by decide) rfl rfl rfl rfl rfl rfl
      ⟨rfl, rfl, rfl, rfl, rfl, rfl, rfl, rfl, rfl, rfl, rfl, rfl⟩ rfl (by decide)
      (lfuRecFromDor_clean 7 stripedObject) rfl (fun _ _ => ⟨rfl, fun _ _ => rfl⟩)
      onlyLayout_served (fun _ _ => rfl)
  have printed
      : emission (workerCtx largeFiles { idLabel := [] } 0)
          (visitObject exactNames (workerCtx largeFiles { idLabel := [] } 0)
            (lfuRecFromDor 7 stripedObject) true (some { lov := some oneStripe }))
        = (1, [true]) := by
    decide
  exact ⟨agree.trans printed, printed⟩

end LfuScan.Kmdt
