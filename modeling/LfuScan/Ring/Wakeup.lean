import LfuScan.Ring.Fifo

/-! Batched wake-ups are enough: although both sides suppress most of them, the two are
never asleep together, and the end of the scan wakes the reader.
-/

namespace LfuScan.Ring

open LfuScan.Lustre LfuScan.Filter LfuScan.Foundations

/-- The producer is inside the `wait_event` of its stall loop. -/
def Producer.stalled : Producer → Bool
  | .waitFree _ _ | .waitStop _ _ | .prepare _ | .sched _ => true
  | _ => false

/-- The producer has found too little space and has not looked again. -/
def Producer.foundFull : Producer → Bool
  | .waitStop _ _ | .sched _ => true
  | _ => false

/-- The reader, inside its `wait_event`, has found the ring empty and has not looked
again.
-/
def Reader.foundEmpty : Reader → Bool
  | .waitDone _ _ | .sched _ => true
  | _ => false

/-- The reader has found `done` unset as well and calls `schedule()`. -/
def Reader.sleeping : Reader → Bool
  | .sched _ => true
  | _ => false

/-- The reader has moved the tail and has yet to decide about waking the producer. -/
def Reader.wakingProducer : Reader → Bool
  | .wakeTest _ | .wake _ => true
  | _ => false

def Sys.producerAsleep (s : Sys) : Prop := (∃ wr, s.producer = .sched wr) ∧ s.prodQueued

def Sys.readerAsleep (s : Sys) : Prop := s.reader.sleeping ∧ s.consQueued

/-- What a queued sleeper has seen is still so, or whoever changed it still has the
wake-up ahead.
-/
structure Watched (params : RingParams) (s : Sys) : Prop where
  empty : s.consQueued = true → s.reader.foundEmpty = true → s.producer.stalled = true →
    s.head = s.tail
  full : s.prodQueued = true → s.producer.foundFull = true →
    lfuRingFree params s.toLfuRing < params.batch.toUInt64
      ∨ s.reader.wakingProducer = true
  running : s.consQueued = true → s.reader.sleeping = true → s.done = true →
    s.producer = .wakeAll

variable {env : Platform} {params : RingParams} {s s' : Sys} {event : Event}

/-- A step that takes the producer to a place outside its stall loop has nothing to show
but that the reader is not left asleep at the end.
-/
theorem Watched.awake (awake : s'.producer.stalled = false)
    (running : s'.consQueued = true → s'.reader.sleeping = true → s'.done = true →
      s'.producer = .wakeAll)
    : Watched params s' where
  empty := fun _ _ stalled => by simp [awake] at stalled
  full := by
    intro _ foundFull
    cases at_ : s'.producer <;>
      simp [at_, Producer.foundFull, Producer.stalled] at foundFull awake
  running := running

/-- Before `done` is set no reader sleeps through it. -/
theorem Watched.notDone (inv : Watched params s) (working : s.producer ≠ .wakeAll)
    (queued : s.consQueued = true) (sleeping : s.reader.sleeping = true)
    : s.done ≠ true :=
  fun done => working (inv.running queued sleeping done)

theorem Watched.producerStep (inv : Watched params s)
    (step : ProducerStep env params s event s')
    : Watched params s' := by
  cases step with
  | stallWake at_ => exact ⟨nofun, fun _ => nofun, nofun⟩
  | waitFreeNo at_ tight =>
      refine ⟨?_, fun _ _ => .inl tight, ?_⟩
      · exact fun queued found _ => inv.empty queued found (by rw [at_]; rfl)
      · exact fun queued sleeping done =>
          absurd done (inv.notDone (by rw [at_]; nofun) queued sleeping)
  | waitStopFirst at_ go | sched at_ woken | prepare at_ =>
      refine ⟨?_, fun _ => nofun, ?_⟩
      · exact fun queued found _ => inv.empty queued found (by rw [at_]; rfl)
      · exact fun queued sleeping done =>
          absurd done (inv.notDone (by rw [at_]; nofun) queued sleeping)
  | waitStopLoop at_ go =>
      refine ⟨?_, ?_, ?_⟩
      · exact fun queued found _ => inv.empty queued found (by rw [at_]; rfl)
      · exact fun queued _ => inv.full queued (by rw [at_]; rfl)
      · exact fun queued sleeping done =>
          absurd done (inv.notDone (by rw [at_]; nofun) queued sleeping)
  | recObject at_ oid dor reply =>
      refine .awake (afterFilter_cases (·.stalled = false) (fun _ _ => rfl) (fun _ => rfl) rfl) ?_
      exact fun queued sleeping done =>
        absurd done (inv.notDone (by rw [at_]; nofun) queued sleeping)
  | setDone at_ => exact .awake rfl fun _ _ _ => rfl
  | wake at_ | wakeAll at_ => exact .awake rfl nofun
  | _ at_ =>
      exact .awake rfl fun queued sleeping done =>
        absurd done (inv.notDone (by rw [at_]; nofun) queued sleeping)

/-- A step that takes the reader out of its `wait_event`, and leaves tail and the
producer alone, keeps what the producer has seen.
-/
theorem Watched.readerLeaves (inv : Watched params s) (head : s'.head = s.head)
    (tail : s'.tail = s.tail) (producer : s'.producer = s.producer)
    (prodQueued : s'.prodQueued = s.prodQueued)
    (was : s.reader.wakingProducer = false) (found : s'.reader.foundEmpty = false)
    : Watched params s' where
  empty := fun _ foundEmpty => by simp [found] at foundEmpty
  full := by
    intro queued foundFull
    rw [prodQueued] at queued
    rw [producer] at foundFull
    rcases inv.full queued foundFull with tight | waking
    · exact .inl (by simpa only [lfuRingFree, head, tail] using tight)
    · simp [was] at waking
  running := by
    intro _ sleeping
    cases at_ : s'.reader <;>
      simp [at_, Reader.foundEmpty, Reader.sleeping] at found sleeping

theorem Watched.readerStep (inv : Watched params s) (step : ReaderStep params s event s')
    : Watched params s' := by
  cases step with
  | callShort at_ _ _ _ => exact inv
  | startNew at_ _ => exact .awake rfl fun _ => nofun
  | waitHeadNo at_ none_ =>
      refine ⟨fun _ _ _ => ?_, ?_, fun _ => nofun⟩
      · exact not_avail_iff.mp none_
      · intro queued foundFull
        rcases inv.full queued foundFull with tight | waking
        · exact .inl tight
        · simp [at_, Reader.wakingProducer] at waking
  | waitDoneSleep at_ more =>
      refine ⟨?_, ?_, ?_⟩
      · exact fun queued _ stalled => inv.empty queued (by rw [at_]; rfl) stalled
      · intro queued foundFull
        rcases inv.full queued foundFull with tight | waking
        · exact .inl tight
        · simp [at_, Reader.wakingProducer] at waking
      · intro _ _ done
        simp [more] at done
  | storeTail at_ => exact ⟨fun _ => nofun, fun _ _ => .inr rfl, fun _ => nofun⟩
  | wakeTestYes at_ room => exact ⟨fun _ => nofun, fun _ _ => .inr rfl, fun _ => nofun⟩
  | wakeTestNo at_ tight => exact ⟨fun _ => nofun, fun _ _ => .inl tight, fun _ => nofun⟩
  | wake at_ => exact ⟨fun _ => nofun, nofun, fun _ => nofun⟩
  | _ at_ => exact inv.readerLeaves rfl rfl rfl rfl (by rw [at_]; rfl) rfl

theorem Watched.step (inv : Watched params s) (step : Step env params s event s')
    : Watched params s' := by
  cases step with
  | producer step => exact inv.producerStep step
  | reader step => exact inv.readerStep step
  | outside step =>
      cases step with
      | signal => exact ⟨nofun, inv.full, nofun⟩
      | handled at_ => exact ⟨inv.empty, inv.full, inv.running⟩
      | release at_ opened => exact ⟨inv.empty, nofun, inv.running⟩

theorem Watched.run {start : Sys} {trace : List Event} (fresh : start.Fresh)
    (run : Run (Step env params) start trace s)
    : Watched params s := by
  refine run.invariant (Watched params) ?_ (fun _ _ _ inv taken => inv.step taken)
  exact .awake (by rw [fresh.producer]; rfl)
    (fun queued => by simp [fresh.consQueued] at queued)

/-- In no reachable state are producer and reader both asleep, and when `done` is set
with the reader asleep the `wake_up_all` is still to come.
-/
theorem never_both_asleep {start : Sys} {trace : List Event} {register : Int}
    (accepted : lfuRingInit params register = 0) (fresh : start.Fresh)
    (run : Run (Step env params) start trace s)
    : ¬ (s.producerAsleep ∧ s.readerAsleep)
      ∧ (s.done = true → s.readerAsleep → s.producer = .wakeAll) := by
  have sound := lfuRingInit_sound accepted
  have inv : Watched params s := Watched.run fresh run
  constructor
  · rintro ⟨⟨⟨wr, at_⟩, prodQueued⟩, sleeping, consQueued⟩
    have foundEmpty : s.reader.foundEmpty = true := by
      cases phase : s.reader <;> simp_all [Reader.sleeping, Reader.foundEmpty]
    have notWaking : s.reader.wakingProducer = false := by
      cases phase : s.reader <;> simp_all [Reader.sleeping, Reader.wakingProducer]
    have empty : s.head = s.tail := inv.empty consQueued foundEmpty (by rw [at_]; rfl)
    -- an empty ring is all free, more than any accepted batch asks for
    rcases inv.full prodQueued (by rw [at_]; rfl) with tight | waking
    · rw [lfuRingFree, empty, UInt64.sub_self, UInt64.sub_zero, UInt64.lt_iff_toNat_lt,
        UInt32.toNat_toUInt64, UInt32.toNat_toUInt64] at tight
      have half := sound.batchHalf
      omega
    · simp [notWaking] at waking
  · exact fun done asleep => inv.running asleep.2 asleep.1 done

/-- The reader falls asleep on the empty ring before the producer has done anything. -/
theorem never_both_asleep_reader
    : ∃ trace s, Run (Step exactNames fourSlots) {} trace s
        ∧ s.readerAsleep ∧ ¬ s.producerAsleep := by
  have run : Run (Step exactNames fourSlots) {} [] {} := .nil
  have run := run.snoc (.reader (.call rfl 168 rfl (by decide)))
  have run := run.snoc (.reader (.startNew rfl rfl))
  have run := run.snoc (.reader (.headNone rfl (by decide)))
  have run := run.snoc (.reader (.doneNo rfl rfl))
  have run := run.snoc (.reader (.waitHeadNo rfl (by decide)))
  have run := run.snoc (.reader (.waitDoneFirst rfl rfl))
  have run := run.snoc (.reader (.prepare rfl rfl))
  have run := run.snoc (.reader (.waitHeadNo rfl (by decide)))
  have run := run.snoc (.reader (.waitDoneSleep rfl rfl))
  have accepted : lfuRingInit fourSlots 0 = 0 := by decide
  have safe := (never_both_asleep accepted sys_fresh run).1
  exact ⟨_, _, run, ⟨rfl, rfl⟩, fun producer => safe ⟨producer, ⟨rfl, rfl⟩⟩⟩

end LfuScan.Ring
