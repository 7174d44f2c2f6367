import LfuScan.Ring.Fifo

/-! The open device under ioctls and reads: which filter is installed, and whether the
buffers its attributes are read into exist.
-/

namespace LfuScan.Ring

open LfuScan.Lustre LfuScan.Filter LfuScan.Foundations

/-- The buffers one round of allocations leaves behind. -/
def AllocReply.scratch (mem : AllocReply) : Scratch :=
  { xaSom := mem.som, xaLov := mem.lov, xaLmv := mem.lmv, xaLink := mem.link }

/-- The payload passes every check `LFU_RING_IOC_SET_FILTER` makes on it. -/
structure PayloadOk (r : LfuRing) (rf : LfuRingFilter) : Prop where
  magic : rf.rfMagic = lfuRingFilterMagic
  version : rf.rfVersion = lfuRingWireVersion
  size : rf.rfSize = lfuFilterSize
  valid : lfuFilterValidate rf.rfFilter = 0
  supplied : lfuFilterNeeds rf.rfFilter &&& ~~~r.canSupply = 0
  attrs : lfuFilterAttrsUsed rf.rfFilter &&& ~~~r.attrMask = 0

/-- Installing a filter over the given buffers. -/
def installFilter (r : LfuRing) (rf : LfuRingFilter) (scratch : Scratch) : LfuRing :=
  {
    r with
    scratch
    filter := some rf
    emitUnknown := rf.rfFlags &&& lfuFilterEmitUnknown != 0
  }

/-- Everything `LFU_RING_IOC_SET_FILTER` can do. -/
inductive SetFilterOutcome (r : LfuRing) (payload : Option LfuRingFilter) (mem : AllocReply)
    : Int × LfuRing → Prop
  | refused (rc : Int) (failed : rc ≠ 0) : SetFilterOutcome r payload mem (rc, r)
  | noMemory (fresh : r.scratch.xaSom = false) (short : mem.scratch.complete = false)
    : SetFilterOutcome r payload mem (-enomem, { r with scratch := mem.scratch })
  | plain (rf : LfuRingFilter) (sent : payload = some rf) (ok : PayloadOk r rf)
    (tier0 : lfuFilterNeeds rf.rfFilter = 0)
    : SetFilterOutcome r payload mem (0, installFilter r rf r.scratch)
  | reused (rf : LfuRingFilter) (sent : payload = some rf) (ok : PayloadOk r rf)
    (held : r.scratch.xaSom = true)
    : SetFilterOutcome r payload mem (0, installFilter r rf r.scratch)
  | allocated (rf : LfuRingFilter) (sent : payload = some rf) (ok : PayloadOk r rf)
    (fresh : r.scratch.xaSom = false) (whole : mem.scratch.complete = true)
    : SetFilterOutcome r payload mem (0, installFilter r rf mem.scratch)

theorem lfuRingAllocScratch_held {r : LfuRing} (mem : AllocReply)
    (held : r.scratch.xaSom = true)
    : lfuRingAllocScratch r mem = (0, r) := by
  simp [lfuRingAllocScratch, held]

theorem lfuRingAllocScratch_fresh {r : LfuRing} (mem : AllocReply)
    (fresh : r.scratch.xaSom = false)
    : lfuRingAllocScratch r mem
      = (if mem.scratch.complete = true then 0 else -enomem,
          { r with scratch := mem.scratch }) := by
  unfold lfuRingAllocScratch
  cases whole : mem.scratch.complete with
  | true => simp_all [AllocReply.scratch]
  | false => simp_all [AllocReply.scratch]

/-- What is left of the ioctl once the payload has passed its checks. -/
theorem lfuRingSetFilter_of_ok {r : LfuRing} {rf : LfuRingFilter} {mem : AllocReply}
    (idle : r.started = false) (room : mem.rf = true) (ok : PayloadOk r rf)
    : lfuRingSetFilter r (some rf) mem
      = (let allocated :=
          if lfuFilterNeeds rf.rfFilter != 0 then lfuRingAllocScratch r mem else (0, r)
        if allocated.1 != 0 then
          allocated
        else
          (0, installFilter allocated.2 rf allocated.2.scratch)) := by
  simp [lfuRingSetFilter, idle, room, ok.magic, ok.version, ok.size, ok.valid, ok.supplied,
    ok.attrs, installFilter]

/-- A payload that fails a check changes nothing. -/
theorem lfuRingSetFilter_of_not_ok {r : LfuRing} {rf : LfuRingFilter} {mem : AllocReply}
    (idle : r.started = false) (room : mem.rf = true) (bad : ¬ PayloadOk r rf)
    : ∃ rc, rc ≠ 0 ∧ lfuRingSetFilter r (some rf) mem = (rc, r) := by
  simp only [lfuRingSetFilter, idle, room, Bool.false_eq_true, if_false, Bool.not_true]
  split
  · exact ⟨_, by decide, rfl⟩
  · rename_i shape
    split
    · exact ⟨_, by decide, rfl⟩
    · rename_i supplied
      split
      · exact ⟨_, by decide, rfl⟩
      · rename_i attrs
        simp only [Bool.or_eq_true, bne_iff_ne, not_or, not_not] at shape supplied attrs
        obtain ⟨⟨⟨magic, version⟩, size⟩, valid⟩ := shape
        exact absurd ⟨magic, version, size, valid, supplied, attrs⟩ bad

theorem lfuRingSetFilter_outcome (r : LfuRing) (payload : Option LfuRingFilter)
    (mem : AllocReply)
    : SetFilterOutcome r payload mem (lfuRingSetFilter r payload mem) := by
  cases started : r.started with
  | true =>
      simp only [lfuRingSetFilter, started, if_true]
      exact .refused _ (by decide)
  | false =>
      cases room : mem.rf with
      | false =>
          have refused : lfuRingSetFilter r payload mem = (-enomem, r) := by
            simp [lfuRingSetFilter, started, room]
          rw [refused]
          exact .refused _ (by decide)
      | true =>
          cases payload with
          | none =>
              have refused : lfuRingSetFilter r none mem = (-efault, r) := by
                simp [lfuRingSetFilter, started, room]
              rw [refused]
              exact .refused _ (by decide)
          | some rf =>
              by_cases ok : PayloadOk r rf
              · rw [lfuRingSetFilter_of_ok started room ok]
                by_cases tier0 : lfuFilterNeeds rf.rfFilter = 0
                · simpa [tier0] using SetFilterOutcome.plain rf rfl ok tier0
                · cases held : r.scratch.xaSom with
                  | true =>
                      simpa [tier0, lfuRingAllocScratch_held mem held]
                        using SetFilterOutcome.reused rf rfl ok held
                  | false =>
                      cases whole : mem.scratch.complete with
                      | true =>
                          simpa [tier0, lfuRingAllocScratch_fresh mem held, whole,
                            installFilter]
                            using SetFilterOutcome.allocated rf rfl ok held whole
                      | false =>
                          simpa [tier0, lfuRingAllocScratch_fresh mem held, whole, enomem]
                            using SetFilterOutcome.noMemory held whole
              · obtain ⟨rc, failed, refused⟩ :=
                  lfuRingSetFilter_of_not_ok started room ok
                rw [refused]
                exact .refused rc failed

-----------------------------------------------------------------------------------------
-- Runs of the open device
-----------------------------------------------------------------------------------------

/-- What happens to an open device: an ioctl and its return code, or a step of the stream.
-/
inductive DeviceEvent
  | ioctl (cmd : IoctlCmd) (rc : Int)
  | stream (event : Event)

inductive DeviceStep (env : Platform) (params : RingParams) : Sys → DeviceEvent → Sys → Prop
  | ioctl {s} (cmd : IoctlCmd) (opened : s.closed = false)
    : DeviceStep env params s (.ioctl cmd (lfuRingIoctl params s.toLfuRing cmd).1)
        { s with toLfuRing := (lfuRingIoctl params s.toLfuRing cmd).2.1 }
  | stream {s event s'} (step : Step env params s event s')
    : DeviceStep env params s (.stream event) s'

/-- The device as `open()` leaves it. -/
def openDevice (params : RingParams) (osd : Option OsdType) (buf : Nat → LfuWireRec) : Sys :=
  { toLfuRing := lfuRingOpen params osd buf }

variable {env : Platform} {params : RingParams} {s s' : Sys} {event : Event}

/-- The stream never touches the filter or its buffers. -/
theorem Step.control_kept (step : Step env params s event s')
    : s'.filter = s.filter ∧ s'.emitUnknown = s.emitUnknown ∧ s'.scratch = s.scratch := by
  cases step with
  | producer step =>
      cases step with
      | _ => exact ⟨rfl, rfl, rfl⟩
  | reader step =>
      cases step with
      | _ => exact ⟨rfl, rfl, rfl⟩
  | outside step =>
      cases step with
      | _ => exact ⟨rfl, rfl, rfl⟩

/-- Buffers are allocated together, and a filter that reads attributes has all of them. -/
structure ScratchSafe (r : LfuRing) : Prop where
  together : r.scratch.xaSom = true → r.scratch.complete = true
  installed : ∀ rf, r.filter = some rf → lfuFilterNeeds rf.rfFilter ≠ 0 →
    r.scratch.complete = true

/-- No round of allocations gets the first buffer without the other three. -/
def AllOrNothing (s : Sys) : DeviceEvent → Prop
  | .ioctl (.setFilter _ mem) _ =>
      s.scratch.xaSom = false → mem.som = true → mem.scratch.complete = true
  | _ => True

theorem ScratchSafe.setFilter {r : LfuRing} {payload : Option LfuRingFilter}
    {mem : AllocReply} (inv : ScratchSafe r)
    (whole : r.scratch.xaSom = false → mem.som = true → mem.scratch.complete = true)
    : ScratchSafe (lfuRingSetFilter r payload mem).2 := by
  have outcome := lfuRingSetFilter_outcome r payload mem
  generalize lfuRingSetFilter r payload mem = result at outcome ⊢
  cases outcome with
  | refused rc failed => exact inv
  | noMemory fresh short =>
      refine ⟨whole fresh, fun rf found needs => ?_⟩
      -- an installed filter that reads attributes would have its buffers already
      have complete := inv.installed rf found needs
      simp [Scratch.complete, fresh] at complete
  | plain rf sent ok tier0 =>
      refine ⟨inv.together, fun other found needs => ?_⟩
      cases found
      exact absurd tier0 needs
  | reused rf sent ok held => exact ⟨inv.together, fun _ _ _ => inv.together held⟩
  | allocated rf sent ok fresh complete => exact ⟨fun _ => complete, fun _ _ _ => complete⟩

theorem ScratchSafe.step {event : DeviceEvent} (inv : ScratchSafe s.toLfuRing)
    (taken : Guarded (DeviceStep env params) AllOrNothing s event s')
    : ScratchSafe s'.toLfuRing := by
  obtain ⟨step, whole⟩ := taken
  cases step with
  | ioctl cmd opened =>
      cases cmd with
      | setFilter payload mem => exact inv.setFilter whole
      | info copied => cases copied <;> exact inv
      | stats copied => cases copied <;> exact inv
      | other => exact inv
  | stream step =>
      obtain ⟨filter, _, scratch⟩ := step.control_kept
      exact ⟨scratch ▸ inv.together, filter ▸ scratch ▸ inv.installed⟩

theorem ScratchSafe.opened (params : RingParams) (osd : Option OsdType)
    (buf : Nat → LfuWireRec)
    : ScratchSafe (openDevice params osd buf).toLfuRing := by
  unfold openDevice lfuRingOpen lfuRingProbe
  rcases osd with _ | _ | _ | _ <;> exact ⟨nofun, nofun⟩

/-- An ioctl that fails leaves the filter and its flag as they were. -/
theorem ioctl_failed_keeps {cmd : IoctlCmd} {rc : Int}
    (step : DeviceStep env params s (.ioctl cmd rc) s') (failed : rc ≠ 0)
    : s'.filter = s.filter ∧ s'.emitUnknown = s.emitUnknown := by
  cases step with
  | ioctl _ opened =>
      cases cmd with
      | info copied => cases copied <;> exact ⟨rfl, rfl⟩
      | stats copied => cases copied <;> exact ⟨rfl, rfl⟩
      | other => exact ⟨rfl, rfl⟩
      | setFilter payload mem =>
          have outcome := lfuRingSetFilter_outcome s.toLfuRing payload mem
          simp only [lfuRingIoctl] at failed ⊢
          generalize lfuRingSetFilter s.toLfuRing payload mem = result at outcome failed ⊢
          cases outcome with
          | refused | noMemory => exact ⟨rfl, rfl⟩
          | plain | reused | allocated => exact absurd rfl failed

/-- In every run in which the first buffer is never allocated without the others, an
installed filter that reads attributes has all four buffers; and in any state a failing
ioctl changes neither filter nor flag. Where one round of allocations does get only the
first buffer, sending the payload again installs it without the missing ones.
-/
theorem scratch_complete_of_allOrNothing {osd : Option OsdType} {buf : Nat → LfuWireRec}
    {trace : List DeviceEvent}
    : (Run (Guarded (DeviceStep env params) AllOrNothing) (openDevice params osd buf) trace s →
        ∀ rf, s.filter = some rf → lfuFilterNeeds rf.rfFilter ≠ 0 →
          s.scratch.complete = true)
      ∧ (∀ cmd rc next, DeviceStep env params s (.ioctl cmd rc) next → rc ≠ 0 →
          next.filter = s.filter ∧ next.emitUnknown = s.emitUnknown)
      ∧ (∀ r rf mem again, r.started = false → PayloadOk r rf →
          lfuFilterNeeds rf.rfFilter ≠ 0 → mem.rf = true → again.rf = true →
          r.scratch.xaSom = false → mem.som = true → mem.scratch.complete = false →
          ∃ retried,
            lfuRingSetFilter (lfuRingSetFilter r (some rf) mem).2 (some rf) again
              = (0, retried)
            ∧ retried.filter = some rf ∧ retried.scratch.complete = false) := by
  refine ⟨?_, fun cmd rc next => ioctl_failed_keeps, ?_⟩
  · intro run
    have inv : ScratchSafe s.toLfuRing :=
      run.invariant (fun s => ScratchSafe s.toLfuRing) (.opened params osd buf)
        (fun _ _ _ inv taken => inv.step taken)
    exact inv.installed
  · intro r rf mem again idle ok needs room roomAgain fresh first short
    have failed : (lfuRingSetFilter r (some rf) mem).2 = { r with scratch := mem.scratch } := by
      simp [lfuRingSetFilter_of_ok idle room ok, needs, lfuRingAllocScratch_fresh mem fresh,
        short, enomem]
    have okAgain : PayloadOk { r with scratch := mem.scratch } rf :=
      ⟨ok.magic, ok.version, ok.size, ok.valid, ok.supplied, ok.attrs⟩
    have idleAgain : ({ r with scratch := mem.scratch } : LfuRing).started = false := idle
    have held : ({ r with scratch := mem.scratch } : LfuRing).scratch.xaSom = true := first
    rw [failed, lfuRingSetFilter_of_ok idleAgain roomAgain okAgain,
      lfuRingAllocScratch_held again held]
    refine ⟨installFilter { r with scratch := mem.scratch } rf mem.scratch, ?_, rfl, short⟩
    simp [needs]

/-- A filter on the stripe count, as a payload. -/
def stripeCountPayload : LfuRingFilter :=
  {
    rfMagic := lfuRingFilterMagic
    rfVersion := lfuRingWireVersion
    rfSize := lfuFilterSize
    rfFlags := 0
    rfFilter := {
      p := (Vector.replicate 32 {}).setIfInBounds 0
        { field := LfuField.stripeCount.code, op := LfuOp.gt.code, val := 4 }
      n := 1
      needs := XattrName.lov.need
    }
  }

def allocAll : AllocReply := { rf := true, som := true, lov := true, lmv := true, link := true }

/-- The second buffer cannot be allocated. -/
def allocNoLov : AllocReply :=
  { rf := true, som := true, lov := false, lmv := true, link := true }

/-- The device of the runs below. -/
def ldiskfsDevice : Sys := openDevice fourSlots (some .ldiskfs) fun _ => {}

theorem stripeCountPayload_ok : PayloadOk ldiskfsDevice.toLfuRing stripeCountPayload :=
  ⟨rfl, rfl, rfl, by decide, by decide, by decide⟩

theorem scratch_complete_of_allOrNothing_installed
    : ∃ trace s,
        Run (Guarded (DeviceStep exactNames fourSlots) AllOrNothing) ldiskfsDevice trace s
        ∧ s.filter = some stripeCountPayload ∧ s.scratch.complete = true := by
  have run
      : Run (Guarded (DeviceStep exactNames fourSlots) AllOrNothing) ldiskfsDevice []
          ldiskfsDevice :=
    .nil
  have run := run.snoc ⟨.ioctl (.setFilter (some stripeCountPayload) allocAll) rfl,
    fun _ _ => rfl⟩
  have installed
      : lfuRingSetFilter ldiskfsDevice.toLfuRing (some stripeCountPayload) allocAll
        = (0, installFilter ldiskfsDevice.toLfuRing stripeCountPayload allocAll.scratch) := by
    rw [lfuRingSetFilter_of_ok rfl rfl stripeCountPayload_ok]
    rfl
  simp only [lfuRingIoctl, installed] at run
  exact ⟨_, _, run, rfl,
    scratch_complete_of_allOrNothing.1 run stripeCountPayload rfl (by decide)⟩

/-- `vmalloc` fails once for the layout buffer; the filter is sent again and installed, and
there is no layout buffer to read into.
-/
theorem scratch_missing_after_retry
    : ∃ trace s, Run (DeviceStep exactNames fourSlots) ldiskfsDevice trace s
        ∧ s.filter = some stripeCountPayload
        ∧ lfuFilterNeeds stripeCountPayload.rfFilter ≠ 0 ∧ s.scratch.xaLov = false := by
  have run : Run (DeviceStep exactNames fourSlots) ldiskfsDevice [] ldiskfsDevice := .nil
  have run := run.snoc (.ioctl (.setFilter (some stripeCountPayload) allocNoLov) rfl)
  have run := run.snoc (.ioctl (.setFilter (some stripeCountPayload) allocAll) rfl)
  exact ⟨_, _, run, rfl, by decide, rfl⟩

end LfuScan.Ring
