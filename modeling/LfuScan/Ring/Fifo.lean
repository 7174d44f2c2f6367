import LfuScan.Foundations.RingBuffer
import LfuScan.Ring.Stream
import Mathlib.Data.List.Infix

/-! The ring is a queue: whatever the interleaving, the records handed out are a prefix of
the records pushed, and the cursors never leave the capacity.
-/

namespace LfuScan.Ring

open LfuScan.Lustre LfuScan.Filter LfuScan.Foundations

/-- The parameters `lfu_ring_init` accepts, as numbers. -/
structure RingParams.Sound (params : RingParams) : Prop where
  power : ∃ width, params.ringRecs.toNat = 2 ^ width
  batchPositive : 0 < params.batch.toNat
  batchHalf : params.batch.toNat ≤ params.ringRecs.toNat / 2

theorem lfuRingInit_sound {params : RingParams} {register : Int}
    (accepted : lfuRingInit params register = 0)
    : params.Sound := by
  unfold lfuRingInit at accepted
  split at accepted
  · simp [einval] at accepted
  · rename_i passed
    simp only [isPowerOf2, Bool.or_eq_true, Bool.not_eq_true', Bool.and_eq_false_iff,
      bne_eq_false_iff_eq, beq_eq_false_iff_ne, beq_iff_eq, decide_eq_true_eq, not_or,
      not_not, UInt32.not_lt] at passed
    obtain ⟨⟨⟨notZero, clear⟩, batchNotZero⟩, half⟩ := passed
    have notZeroNat : params.ringRecs.toNat ≠ 0 := by
      simpa [← UInt32.toNat_inj] using notZero
    have pred : (params.ringRecs - 1).toNat = params.ringRecs.toNat - 1 := by
      rw [UInt32.toNat_sub_of_le]
      · rfl
      · rw [UInt32.le_iff_toNat_le]
        exact Nat.one_le_iff_ne_zero.mpr notZeroNat
    refine ⟨two_pow_of_and_pred notZeroNat ?_, ?_, ?_⟩
    · rw [← pred, ← UInt32.toNat_and, clear]
      rfl
    · exact Nat.pos_of_ne_zero (by simpa [← UInt32.toNat_inj] using batchNotZero)
    · rw [UInt32.le_iff_toNat_le, UInt32.toNat_div] at half
      exact half

/-- The capacity is a 32-bit number. -/
theorem ringRecs_lt (params : RingParams) : params.ringRecs.toNat < 2 ^ 32 :=
  params.ringRecs.toNat_lt

theorem RingParams.Sound.ringRecs_pos {params : RingParams} (sound : params.Sound)
    : 0 < params.ringRecs.toNat := by
  have := sound.batchPositive
  have := sound.batchHalf
  omega

/-- The masked index of a counter is the residue of its total. -/
theorem ringSlot_toNat {params : RingParams} (sound : params.Sound) (total : Nat)
    : (ringSlot params (UInt64.ofNat total)).toNat = total % params.ringRecs.toNat := by
  obtain ⟨width, power⟩ := sound.power
  have widened : (params.ringRecs - 1).toUInt64 = params.ringRecs.toUInt64 - 1 := by
    have positive := sound.ringRecs_pos
    rw [← UInt64.toNat_inj, UInt32.toNat_toUInt64, UInt32.toNat_sub_of_le,
      UInt64.toNat_sub_of_le, UInt32.toNat_toUInt64]
    · rfl
    · rw [UInt64.le_iff_toNat_le, UInt32.toNat_toUInt64]
      exact positive
    · rw [UInt32.le_iff_toNat_le]
      exact positive
  have power64 : params.ringRecs.toUInt64.toNat = 2 ^ width := by
    rw [UInt32.toNat_toUInt64, power]
  have mask := counter_mask total power64
  rw [ringSlot, widened, mask, UInt32.toNat_toUInt64]

/-- The records a reader that has already moved the tail is about to return. -/
def Reader.taken : Reader → List LfuWireRec
  | .wakeTest got | .wake got => got
  | _ => []

/-- Every record the tail has moved past. -/
def Sys.handedOut (s : Sys) : List LfuWireRec := s.returned ++ s.reader.taken

/-- The next slot is free. -/
def Sys.Room (params : RingParams) (s : Sys) : Prop :=
  s.pushed.length < s.handedOut.length + params.ringRecs.toNat

/-- What the producer relies on between its test for space and its store of `head`. -/
def ProducerOk (params : RingParams) (s : Sys) : Prop :=
  match s.producer with
  | .fill _ => s.Room params
  | .publish wr =>
      s.Room params ∧ s.buf (s.pushed.length % params.ringRecs.toNat) = wr
  | _ => True

/-- What the reader relies on between its load of `head` and its store of `tail`. -/
def ReaderOk (params : RingParams) (s : Sys) : Prop :=
  match s.reader with
  | .copy idx run got =>
      idx.toNat = s.handedOut.length % params.ringRecs.toNat
      ∧ idx.toNat + run.toNat ≤ params.ringRecs.toNat
      ∧ s.handedOut.length + run.toNat ≤ s.pushed.length
      ∧ got.length ≤ run.toNat
      ∧ got <+: s.pushed.drop s.handedOut.length
  | .storeTail run got =>
      got.length = run.toNat ∧ got <+: s.pushed.drop s.handedOut.length
  | _ => True

/-- The cursors count the pushed and the handed out records, the latter are the oldest of
the former, and the buffer holds the rest.
-/
structure Fifo (params : RingParams) (s : Sys) : Prop where
  head : s.head = UInt64.ofNat s.pushed.length
  tail : s.tail = UInt64.ofNat s.handedOut.length
  inOrder : s.handedOut <+: s.pushed
  capacity : s.pushed.length ≤ s.handedOut.length + params.ringRecs.toNat
  held : Holds s.buf params.ringRecs.toNat s.pushed s.handedOut.length
  producer : ProducerOk params s
  reader : ReaderOk params s

variable {env : Platform} {params : RingParams} {s s' : Sys} {event : Event}

/-- `avail` is the number of records waiting, however often the cursors wrapped. -/
theorem Fifo.avail_toNat (inv : Fifo params s)
    : (lfuRingAvail s.toLfuRing).toNat = s.pushed.length - s.handedOut.length := by
  have small := ringRecs_lt params
  have capacity := inv.capacity
  rw [lfuRingAvail, inv.head, inv.tail]
  exact counter_diff inv.inOrder.length_le (by omega)

/-- `free` is the number of free slots; it does not wrap. -/
theorem Fifo.free_toNat (inv : Fifo params s)
    : (lfuRingFree params s.toLfuRing).toNat
      = params.ringRecs.toNat - (s.pushed.length - s.handedOut.length) := by
  have avail := inv.avail_toNat
  have capacity := inv.capacity
  rw [lfuRingAvail] at avail
  rw [lfuRingFree, UInt64.toNat_sub_of_le, UInt32.toNat_toUInt64, avail]
  rw [UInt64.le_iff_toNat_le, UInt32.toNat_toUInt64, avail]
  omega

/-- The reader's test for an empty ring. -/
theorem not_avail_iff {r : LfuRing} : ¬ lfuRingAvail r > 0 ↔ r.head = r.tail := by
  have zero : ¬ lfuRingAvail r > 0 ↔ lfuRingAvail r = 0 := by
    rw [gt_iff_lt, UInt64.lt_iff_toNat_lt, ← UInt64.toNat_inj]
    simp
  rw [zero, lfuRingAvail, UInt64.sub_eq_iff_eq_add, UInt64.zero_add]

/-- Equal cursors mean that everything pushed has been handed out: they are never a whole
turn of the counters apart.
-/
theorem Fifo.handedOut_eq (inv : Fifo params s) (empty : s.head = s.tail)
    : s.handedOut = s.pushed := by
  have avail := inv.avail_toNat
  rw [lfuRingAvail, empty, UInt64.sub_self] at avail
  exact inv.inOrder.eq_of_length_le (Nat.sub_eq_zero_iff_le.mp avail.symm)

-----------------------------------------------------------------------------------------
-- What each party can do to the ring
-----------------------------------------------------------------------------------------

/-- The shared ring and what has gone through it are the same in both states. -/
structure SameRing (s s' : Sys) : Prop where
  head : s'.head = s.head
  tail : s'.tail = s.tail
  buf : s'.buf = s.buf
  pushed : s'.pushed = s.pushed
  handedOut : s'.handedOut = s.handedOut

theorem SameRing.producerOk (same : SameRing s s') (kept : s'.producer = s.producer)
    (before : ProducerOk params s)
    : ProducerOk params s' := by
  simpa only [ProducerOk, Sys.Room, kept, same.pushed, same.handedOut, same.buf]
    using before

theorem SameRing.readerOk (same : SameRing s s') (kept : s'.reader = s.reader)
    (before : ReaderOk params s)
    : ReaderOk params s' := by
  simpa only [ReaderOk, kept, same.pushed, same.handedOut] using before

/-- Pushing more records leaves a read under way undisturbed. -/
theorem ReaderOk.push (before : ReaderOk params s) (kept : s'.reader = s.reader)
    (out : s'.handedOut = s.handedOut) (longer : s.pushed <+: s'.pushed)
    : ReaderOk params s' := by
  unfold ReaderOk at before ⊢
  rw [kept, out]
  split at before
  · obtain ⟨slot, inside, present, count, copied⟩ := before
    exact ⟨slot, inside, present.trans longer.length_le, count,
      copied.trans (longer.drop _)⟩
  · exact ⟨before.1, before.2.trans (longer.drop _)⟩
  · trivial

/-- Consuming records leaves a push under way undisturbed. -/
theorem ProducerOk.consume (before : ProducerOk params s)
    (kept : s'.producer = s.producer) (pushed : s'.pushed = s.pushed)
    (buf : s'.buf = s.buf) (more : s.handedOut.length ≤ s'.handedOut.length)
    : ProducerOk params s' := by
  unfold ProducerOk Sys.Room at before ⊢
  rw [kept, pushed, buf]
  split at before
  · exact before.trans_le (Nat.add_le_add_right more _)
  · exact ⟨before.1.trans_le (Nat.add_le_add_right more _), before.2⟩
  · trivial

/-- A step that leaves the ring alone only has to account for its own party. -/
theorem Fifo.frame (inv : Fifo params s) (same : SameRing s s')
    (producer : ProducerOk params s') (reader : ReaderOk params s')
    : Fifo params s' where
  head := by rw [same.head, same.pushed, inv.head]
  tail := by rw [same.tail, same.handedOut, inv.tail]
  inOrder := by
    rw [same.handedOut, same.pushed]
    exact inv.inOrder
  capacity := by
    rw [same.handedOut, same.pushed]
    exact inv.capacity
  held := by
    rw [same.buf, same.handedOut, same.pushed]
    exact inv.held
  producer := producer
  reader := reader

/-- The producer stands between its test for space and its store of `head`. -/
def Producer.writing : Producer → Bool
  | .fill _ | .publish _ => true
  | _ => false

/-- The reader stands between its load of `head` and its store of `tail`. -/
def Reader.copying : Reader → Bool
  | .copy _ _ _ | .storeTail _ _ => true
  | _ => false

theorem producerOk_of_not_writing (quiet : s.producer.writing = false)
    : ProducerOk params s := by
  unfold ProducerOk
  cases at_ : s.producer <;> simp_all [Producer.writing]

theorem readerOk_of_not_copying (quiet : s.reader.copying = false)
    : ReaderOk params s := by
  unfold ReaderOk
  cases at_ : s.reader <;> simp_all [Reader.copying]

/-- Everything a producer step can do to the ring. -/
inductive ProducerEffect (params : RingParams) (s s' : Sys) : Prop
  | quiet (same : SameRing s s') (kept : s'.reader = s.reader)
    (quiet : s'.producer.writing = false)
  | claim (wr : LfuWireRec) (free : lfuRingFree params s.toLfuRing ≠ 0)
    (result : s' = { s with producer := .fill wr })
  | fill (wr : LfuWireRec) (at_ : s.producer = .fill wr)
    (result
      : s'
        = {
            s with
            buf := Function.update s.buf (ringSlot params s.head).toNat wr
            producer := .publish wr
          })
  | publish (wr : LfuWireRec) (at_ : s.producer = .publish wr)
    (result
      : s'
        = {
            s with
            head := s.head + 1
            produced := s.produced + 1
            st := { s.st with rsEmitted := s.st.rsEmitted + 1 }
            pushed := s.pushed ++ [wr]
            producer := .wakeTest
          })

theorem ProducerStep.effect (step : ProducerStep env params s event s')
    : ProducerEffect params s s' := by
  cases step with
  | stallFree at_ free => exact .claim _ free rfl
  | fill at_ => exact .fill _ at_ rfl
  | publish at_ => exact .publish _ at_ rfl
  | recObject at_ oid dor reply =>
      exact .quiet ⟨rfl, rfl, rfl, rfl, rfl⟩ rfl
        (afterFilter_cases (·.writing = false) (fun _ _ => rfl) (fun _ => rfl) rfl)
  | _ => exact .quiet ⟨rfl, rfl, rfl, rfl, rfl⟩ rfl rfl

/-- Everything a reader step can do to the ring. -/
inductive ReaderEffect (params : RingParams) (s s' : Sys) : Prop
  | quiet (same : SameRing s s')
    (producer : s'.producer = s.producer ∨ s'.producer.writing = false)
    (quiet : s'.reader.copying = false)
  | begin (want : UInt64) (at_ : s.reader = .loadHead want)
    (some_ : lfuRingAvail s.toLfuRing > 0)
    (result
      : s'
        = {
            s with
            reader := .copy (ringSlot params s.tail) (readRun params s.toLfuRing want) []
          })
  | copyOne (idx run : UInt64) (got : List LfuWireRec) (at_ : s.reader = .copy idx run got)
    (more : got.length < run.toNat)
    (result
      : s' = { s with reader := .copy idx run (got ++ [s.buf (idx.toNat + got.length)]) })
  | copyDone (idx run : UInt64) (got : List LfuWireRec) (at_ : s.reader = .copy idx run got)
    (full : got.length = run.toNat) (result : s' = { s with reader := .storeTail run got })
  | storeTail (run : UInt64) (got : List LfuWireRec) (at_ : s.reader = .storeTail run got)
    (result : s' = { s with tail := s.tail + run, reader := .wakeTest got })

theorem ReaderStep.effect (step : ReaderStep params s event s')
    : ReaderEffect params s s' := by
  cases step with
  | headSome at_ some_ => exact .begin _ at_ some_ rfl
  | copyOne at_ more => exact .copyOne _ _ _ at_ more rfl
  | copyDone at_ full => exact .copyDone _ _ _ at_ full rfl
  | storeTail at_ => exact .storeTail _ _ at_ rfl
  | callShort at_ _ _ _ =>
      exact .quiet ⟨rfl, rfl, rfl, rfl, rfl⟩ (.inl rfl) (by rw [at_]; rfl)
  | startNew at_ _ =>
      exact .quiet ⟨rfl, rfl, rfl, rfl, by simp [Sys.handedOut, Reader.taken, at_]⟩
        (.inr rfl) rfl
  | _ at_ =>
      exact .quiet ⟨rfl, rfl, rfl, rfl, by simp [Sys.handedOut, Reader.taken, at_]⟩
        (.inl rfl) rfl

-----------------------------------------------------------------------------------------
-- Every step keeps the queue
-----------------------------------------------------------------------------------------

theorem Fifo.producerStep (sound : params.Sound) (inv : Fifo params s)
    (step : ProducerStep env params s event s')
    : Fifo params s' := by
  cases step.effect with
  | quiet same kept quiet =>
      exact inv.frame same (producerOk_of_not_writing quiet) (same.readerOk kept inv.reader)
  | claim wr free result =>
      subst result
      have room : s.Room params := by
        have freeNat : (lfuRingFree params s.toLfuRing).toNat ≠ 0 := by
          simpa [← UInt64.toNat_inj] using free
        rw [inv.free_toNat] at freeNat
        have le := inv.inOrder.length_le
        unfold Sys.Room
        omega
      exact inv.frame ⟨rfl, rfl, rfl, rfl, rfl⟩ room inv.reader
  | fill wr at_ result =>
      subst result
      have room : s.Room params := by
        simpa only [ProducerOk, at_] using inv.producer
      have slot := ringSlot_toNat sound s.pushed.length
      rw [← inv.head] at slot
      refine ⟨inv.head, inv.tail, inv.inOrder, inv.capacity, ?_, ⟨room, ?_⟩, inv.reader⟩
      · rw [slot]
        exact inv.held.fill room wr
      · simp only [slot, Function.update_self]
  | publish wr at_ result =>
      subst result
      obtain ⟨room, written⟩ : s.Room params
          ∧ s.buf (s.pushed.length % params.ringRecs.toNat) = wr := by
        simpa only [ProducerOk, at_] using inv.producer
      refine ⟨?_, inv.tail, ?_, ?_, inv.held.publish written, trivial, ?_⟩
      · simp only [inv.head, List.length_append, List.length_singleton, UInt64.ofNat_add]
        rfl
      · exact inv.inOrder.trans (List.prefix_append _ _)
      · rw [List.length_append]
        exact room
      · -- a copy under way only needs what was there when it began
        exact inv.reader.push rfl rfl (List.prefix_append _ _)

/-- The length a read copies stays inside what is there and before the wrap point. -/
theorem Fifo.readRun_bounds (sound : params.Sound) (inv : Fifo params s) (want : UInt64)
    : (ringSlot params s.tail).toNat + (readRun params s.toLfuRing want).toNat
        ≤ params.ringRecs.toNat
      ∧ s.handedOut.length + (readRun params s.toLfuRing want).toNat
        ≤ s.pushed.length := by
  have slot := ringSlot_toNat sound s.handedOut.length
  rw [← inv.tail] at slot
  have below : (ringSlot params s.tail).toNat < params.ringRecs.toNat := by
    rw [slot]
    exact Nat.mod_lt _ sound.ringRecs_pos
  have rest : (params.ringRecs.toUInt64 - ringSlot params s.tail).toNat
      = params.ringRecs.toNat - (ringSlot params s.tail).toNat := by
    rw [UInt64.toNat_sub_of_le, UInt32.toNat_toUInt64]
    rw [UInt64.le_iff_toNat_le, UInt32.toNat_toUInt64]
    exact below.le
  have toRest : (readRun params s.toLfuRing want).toNat
      ≤ (params.ringRecs.toUInt64 - ringSlot params s.tail).toNat := by
    rw [← UInt64.le_iff_toNat_le]
    exact Std.min_le_right
  have toAvail : (readRun params s.toLfuRing want).toNat
      ≤ (lfuRingAvail s.toLfuRing).toNat := by
    rw [← UInt64.le_iff_toNat_le]
    exact UInt64.le_trans Std.min_le_left Std.min_le_left
  rw [inv.avail_toNat] at toAvail
  have le := inv.inOrder.length_le
  omega

theorem Fifo.readerStep (sound : params.Sound) (inv : Fifo params s)
    (step : ReaderStep params s event s')
    : Fifo params s' := by
  cases step.effect with
  | quiet same producer quiet =>
      refine inv.frame same ?_ (readerOk_of_not_copying quiet)
      rcases producer with kept | quietProducer
      · exact same.producerOk kept inv.producer
      · exact producerOk_of_not_writing quietProducer
  | begin want at_ some_ result =>
      subst result
      have same : SameRing s
          {
            s with
            reader := .copy (ringSlot params s.tail) (readRun params s.toLfuRing want) []
          } :=
        ⟨rfl, rfl, rfl, rfl, by simp [Sys.handedOut, Reader.taken, at_]⟩
      obtain ⟨inside, present⟩ := inv.readRun_bounds sound want
      refine inv.frame same (same.producerOk rfl inv.producer) ?_
      simp only [ReaderOk, same.handedOut]
      refine ⟨?_, inside, present, Nat.zero_le _, List.nil_prefix⟩
      rw [inv.tail]
      exact ringSlot_toNat sound _
  | copyOne idx run got at_ more result =>
      subst result
      have same : SameRing s
          { s with reader := .copy idx run (got ++ [s.buf (idx.toNat + got.length)]) } :=
        ⟨rfl, rfl, rfl, rfl, by simp [Sys.handedOut, Reader.taken, at_]⟩
      have before := inv.reader
      simp only [ReaderOk, at_] at before
      obtain ⟨slot, inside, present, count, copied⟩ := before
      refine inv.frame same (same.producerOk rfl inv.producer) ?_
      simp only [ReaderOk, same.handedOut]
      refine ⟨slot, inside, present, ?_, ?_⟩
      · rw [List.length_append]
        exact more
      · have inSlots
            : s.handedOut.length % params.ringRecs.toNat + got.length
              < params.ringRecs.toNat := by
          omega
        have extended := inv.held.copy inSlots (by omega)
        rw [← List.prefix_iff_eq_take.mp copied, ← slot] at extended
        rw [extended]
        exact List.take_prefix _ _
  | copyDone idx run got at_ full result =>
      subst result
      have same : SameRing s { s with reader := .storeTail run got } :=
        ⟨rfl, rfl, rfl, rfl, by simp [Sys.handedOut, Reader.taken, at_]⟩
      have before := inv.reader
      simp only [ReaderOk, at_] at before
      refine inv.frame same (same.producerOk rfl inv.producer) ?_
      simp only [ReaderOk, same.handedOut]
      exact ⟨full, before.2.2.2.2⟩
  | storeTail run got at_ result =>
      subst result
      have before := inv.reader
      simp only [ReaderOk, at_] at before
      obtain ⟨count, copied⟩ := before
      have out : s.handedOut = s.returned := by simp [Sys.handedOut, Reader.taken, at_]
      rw [out] at copied
      have inOrder : s.returned ++ got <+: s.pushed := by
        have older := inv.inOrder
        rw [out] at older
        obtain ⟨later, whole⟩ := older
        rw [← whole, List.drop_left] at copied
        rw [← whole]
        exact (List.prefix_append_right_inj _).mpr copied
      have grown : ({ s with tail := s.tail + run, reader := .wakeTest got } : Sys).handedOut
          = s.returned ++ got := rfl
      have capacity := inv.capacity
      rw [out] at capacity
      refine ⟨inv.head, ?_, ?_, ?_, ?_, ?_, trivial⟩
      · rw [grown, List.length_append, UInt64.ofNat_add, count]
        simp only [inv.tail, out, UInt64.ofNat_toNat]
      · rw [grown]
        exact inOrder
      · rw [grown, List.length_append]
        exact capacity.trans (by omega)
      · rw [grown]
        exact inv.held.consume (by rw [out, List.length_append]; omega)
      · refine inv.producer.consume rfl rfl rfl ?_
        rw [grown, out, List.length_append]
        omega

theorem Fifo.step (sound : params.Sound) (inv : Fifo params s)
    (step : Step env params s event s')
    : Fifo params s' := by
  cases step with
  | producer step => exact inv.producerStep sound step
  | reader step => exact inv.readerStep sound step
  | outside step =>
      cases step with
      | _ => exact inv.frame ⟨rfl, rfl, rfl, rfl, rfl⟩ inv.producer inv.reader

theorem Fifo.fresh (fresh : s.Fresh) : Fifo params s where
  head := by rw [fresh.head, fresh.pushed]; rfl
  tail := by
    rw [fresh.tail, Sys.handedOut, fresh.returned, fresh.reader]
    rfl
  inOrder := by simp [Sys.handedOut, fresh.returned, fresh.reader, Reader.taken]
  capacity := by simp [fresh.pushed]
  held := by
    intro index _ item at_
    simp [fresh.pushed] at at_
  producer := producerOk_of_not_writing (by rw [fresh.producer]; rfl)
  reader := readerOk_of_not_copying (by rw [fresh.reader]; rfl)

theorem Fifo.run {start : Sys} {trace : List Event} (sound : params.Sound)
    (fresh : start.Fresh) (run : Run (Step env params) start trace s)
    : Fifo params s :=
  run.invariant (Fifo params) (.fresh fresh) (fun _ _ _ inv taken => inv.step sound taken)

-----------------------------------------------------------------------------------------
-- What the reads of a run returned
-----------------------------------------------------------------------------------------

/-- The records a `read()` that returned with this event handed to its caller. -/
def Event.records : Event → List LfuWireRec
  | .readRecords records => records
  | _ => []

/-- The records of all the successful reads of a run, in order. -/
def recordsRead (trace : List Event) : List LfuWireRec := trace.flatMap Event.records

@[simp]
theorem recordsRead_snoc (trace : List Event) (event : Event)
    : recordsRead (trace ++ [event]) = recordsRead trace ++ event.records := by
  simp [recordsRead]

theorem Step.returned (step : Step env params s event s')
    : s'.returned = s.returned ++ event.records := by
  cases step with
  | producer step => cases step <;> simp [Event.records]
  | reader step => cases step <;> simp [Event.records]
  | outside step => cases step <;> simp [Event.records]

/-- The ghost list of returned records is what the events show. -/
theorem returned_eq_recordsRead {start : Sys} {trace : List Event} (fresh : start.Fresh)
    (run : Run (Step env params) start trace s)
    : s.returned = recordsRead trace := by
  refine run.traceInvariant (fun trace s => s.returned = recordsRead trace) ?_ ?_
  · rw [fresh.returned]
    rfl
  · intro before state event next same taken
    rw [taken.returned, same, recordsRead_snoc]

/-- At every moment of every run the successful reads together returned a prefix of what
was pushed; nothing waiting was overwritten; between reads nothing else was consumed; and
the distance of the cursors, as totals and as 64-bit counters, stays within the capacity.
-/
theorem reads_prefix_of_pushes {start : Sys} {trace : List Event} {register : Int}
    (accepted : lfuRingInit params register = 0) (fresh : start.Fresh)
    (run : Run (Step env params) start trace s)
    : recordsRead trace <+: s.pushed
      ∧ (s.reader = .idle → s.handedOut = recordsRead trace)
      ∧ s.head = UInt64.ofNat s.pushed.length
      ∧ s.tail = UInt64.ofNat s.handedOut.length
      ∧ s.handedOut.length ≤ s.pushed.length
      ∧ s.pushed.length ≤ s.handedOut.length + params.ringRecs.toNat
      ∧ (lfuRingAvail s.toLfuRing).toNat ≤ params.ringRecs.toNat
      ∧ Holds s.buf params.ringRecs.toNat s.pushed s.handedOut.length := by
  have inv : Fifo params s := Fifo.run (lfuRingInit_sound accepted) fresh run
  have returned := returned_eq_recordsRead fresh run
  refine ⟨?_, ?_, inv.head, inv.tail, inv.inOrder.length_le, inv.capacity, ?_, inv.held⟩
  · rw [← returned]
    exact (List.prefix_append _ _).trans inv.inOrder
  · intro idle
    simp [Sys.handedOut, idle, Reader.taken, returned]
  · have capacity := inv.capacity
    rw [inv.avail_toNat]
    omega

/-- A small ring. -/
def fourSlots : RingParams := { ringRecs := 4, batch := 1 }

def noXattrs : XattrName → XaReply := fun _ => .error (-enodata)

/-- A reader has started the producer, which is about to look at its first object. -/
theorem started_run
    : Run (Step exactNames fourSlots) {} [.tau, .tau, .setupRet 0, .loadRet 0, .tau]
        { started := true, producer := .recAttr, reader := .loadHead (168 / lfuWireRecSize) } := by
  have run : Run (Step exactNames fourSlots) {} [] {} := .nil
  have run := run.snoc (.reader (.call rfl 168 rfl (by decide)))
  have run := run.snoc (.reader (.startNew rfl rfl))
  have run := run.snoc (.producer (.setupOk rfl))
  have run := run.snoc (.producer (.loadOk rfl 0))
  have run := run.snoc (.producer (.topGo rfl rfl))
  exact run

/-- A run in which one object is pushed and read back. -/
theorem oneRecord_run
    : ∃ trace s, Run (Step exactNames fourSlots) {} trace s
        ∧ (recordsRead trace).length = 1 := by
  have run := started_run.snoc (.producer (.recObject rfl 7 default noXattrs))
  have run := run.snoc (.producer (.stallFree rfl (by decide)))
  have run := run.snoc (.producer (.fill rfl))
  have run := run.snoc (.producer (.publish rfl))
  have run := run.snoc (.reader (.headSome rfl (by decide)))
  have run := run.snoc (.reader (.copyOne rfl (by decide)))
  have run := run.snoc (.reader (.copyDone rfl (by decide)))
  have run := run.snoc (.reader (.storeTail rfl))
  have run := run.snoc (.reader (.wakeTestYes rfl (by decide)))
  have run := run.snoc (.reader (.wake rfl))
  exact ⟨_, _, run, rfl⟩

theorem sys_fresh : Sys.Fresh {} :=
  ⟨rfl, rfl, rfl, rfl, rfl, rfl, rfl, rfl, rfl, rfl, rfl, rfl, rfl⟩

theorem reads_prefix_of_pushes_oneRecord
    : ∃ trace s, Run (Step exactNames fourSlots) {} trace s
        ∧ (recordsRead trace).length = 1 ∧ recordsRead trace <+: s.pushed := by
  obtain ⟨trace, s, run, one⟩ := oneRecord_run
  have accepted : lfuRingInit fourSlots 0 = 0 := by decide
  exact ⟨trace, s, run, one, (reads_prefix_of_pushes accepted sys_fresh run).1⟩

end LfuScan.Ring
