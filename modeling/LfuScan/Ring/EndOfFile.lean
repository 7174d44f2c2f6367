import LfuScan.Ring.Fifo

/-! End of file. `lfu_ring_read` looks at `head` and at `done` in two steps, so the last
records and `done` may both arrive in between. End of file is exact in every run in which
that does not happen, and loses records in every run in which it does.
-/

namespace LfuScan.Ring

open LfuScan.Lustre LfuScan.Filter LfuScan.Foundations

/-- The reader has found the ring empty, has not looked at `done` yet, and records have
been pushed since.
-/
def EofRace (s : Sys) : Prop := (∃ want, s.reader = .loadDone want) ∧ s.head ≠ s.tail

/-- `done` is not set in the middle of such a race. -/
def DoneUnraced (s : Sys) (event : Event) : Prop := event = .doneSet → ¬ EofRace s

/-- The producer has set `done`. -/
def Producer.finished : Producer → Bool
  | .wakeAll | .parked => true
  | _ => false

/-- Where `done` can be set, and that the thread is born once. -/
structure DonePlace (s : Sys) : Prop where
  done : s.done = s.producer.finished
  unborn : s.started = false → s.producer = .unborn
  deciding : s.reader = .loadErr → s.done = true

/-- Once `done` is set, a reader past its test for records knows the ring is empty. -/
structure EofExact (s : Sys) : Prop where
  deciding : ∀ want, s.reader = .loadDone want → s.done = true → s.head = s.tail
  decided : s.reader = .loadErr → s.head = s.tail

variable {env : Platform} {params : RingParams} {s s' : Sys} {event : Event}

/-- A producer that is still at work keeps `done` unset. -/
theorem DonePlace.producer (inv : DonePlace s) (started : s'.started = s.started)
    (done : s'.done = s'.producer.finished) (kept : s'.reader = s.reader)
    (born : s.producer ≠ .unborn) (monotone : s.done = true → s'.done = true)
    : DonePlace s' where
  done := done
  unborn := fun notStarted => absurd (inv.unborn (started ▸ notStarted)) born
  deciding := fun leaving => monotone (inv.deciding (kept ▸ leaving))

theorem DonePlace.step (inv : DonePlace s) (step : Step env params s event s')
    : DonePlace s' := by
  cases step with
  | producer step =>
      have before := inv.done
      cases step with
      | recObject at_ oid dor reply =>
          have working
              : (afterFilter s.emitUnknown oid dor (s.filterObject env oid dor reply)).finished
                = false :=
            afterFilter_cases (·.finished = false) (fun _ _ => rfl) (fun _ => rfl) rfl
          rw [at_] at before
          exact inv.producer rfl (before.trans working.symm) rfl (by rw [at_]; nofun) id
      | setDone at_ => exact inv.producer rfl rfl rfl (by rw [at_]; nofun) fun _ => rfl
      | _ at_ =>
          rw [at_] at before
          exact inv.producer rfl before rfl (by rw [at_]; nofun) id
  | reader step =>
      cases step with
      | callShort at_ _ _ _ => exact inv
      | startNew at_ first =>
          have before := inv.done
          rw [inv.unborn first] at before
          exact ⟨before, nofun, nofun⟩
      | doneYes at_ done => exact ⟨inv.done, inv.unborn, fun _ => done⟩
      | _ at_ => exact ⟨inv.done, inv.unborn, nofun⟩
  | outside step =>
      cases step with
      | _ => exact ⟨inv.done, inv.unborn, inv.deciding⟩

theorem DonePlace.run {start : Sys} {trace : List Event} (fresh : start.Fresh)
    (run : Run (Step env params) start trace s)
    : DonePlace s := by
  refine run.invariant DonePlace ?_ (fun _ _ _ inv taken => inv.step taken)
  exact ⟨
    by rw [fresh.done, fresh.producer]; rfl,
    fun _ => fresh.producer,
    fun leaving => by simp [fresh.reader] at leaving
  ⟩

/-- A producer that has finished pushes nothing. -/
theorem ProducerStep.head_of_done (place : DonePlace s) (done : s.done = true)
    (step : ProducerStep env params s event s')
    : s'.head = s.head := by
  have finished : s.producer.finished = true := place.done ▸ done
  cases step with
  | publish at_ => simp [at_, Producer.finished] at finished
  | _ => rfl

theorem ProducerStep.tail_reader (step : ProducerStep env params s event s')
    : s'.tail = s.tail ∧ s'.reader = s.reader := by
  cases step with
  | _ => exact ⟨rfl, rfl⟩

/-- `done` changes by one step only. -/
theorem ProducerStep.done_cases (step : ProducerStep env params s event s')
    : s'.done = s.done ∨ event = .doneSet ∧ s'.head = s.head := by
  cases step with
  | setDone => exact .inr ⟨rfl, rfl⟩
  | _ => exact .inl rfl

theorem EofExact.step (place : DonePlace s) (inv : EofExact s)
    (step : Step env params s event s') (unraced : DoneUnraced s event)
    : EofExact s' := by
  cases step with
  | producer step =>
      obtain ⟨tail, reader⟩ := step.tail_reader
      constructor
      · intro want at_ done
        rw [reader] at at_
        rcases step.done_cases with kept | ⟨set, head⟩
        · rw [kept] at done
          rw [step.head_of_done place done, tail]
          exact inv.deciding want at_ done
        · rw [head, tail]
          exact not_not.mp fun differ => unraced set ⟨⟨want, at_⟩, differ⟩
      · intro leaving
        rw [reader] at leaving
        rw [step.head_of_done place (place.deciding leaving), tail]
        exact inv.decided leaving
  | reader step =>
      cases step with
      | callShort at_ _ _ _ => exact inv
      | headNone at_ none_ => exact ⟨fun _ _ _ => not_avail_iff.mp none_, nofun⟩
      | doneYes at_ done => exact ⟨nofun, fun _ => inv.deciding _ at_ done⟩
      | _ => exact ⟨nofun, nofun⟩
  | outside step =>
      cases step with
      | _ => exact ⟨inv.deciding, inv.decided⟩

theorem EofExact.run {start : Sys} {trace : List Event} (fresh : start.Fresh)
    (run : Run (Guarded (Step env params) DoneUnraced) start trace s)
    : DonePlace s ∧ EofExact s := by
  refine run.invariant (fun s => DonePlace s ∧ EofExact s) ?_ ?_
  · have none_ : Run (Step env params) start [] start := .nil
    refine ⟨DonePlace.run fresh none_, ?_, ?_⟩
    · intro want at_
      simp [fresh.reader] at at_
    · intro at_
      simp [fresh.reader] at at_
  · intro state event next inv taken
    exact ⟨inv.1.step taken.1, inv.2.step inv.1 taken.1 taken.2⟩

/-- In every run in which `done` is never set during a race, a `read()` that reports the
end finds the ring drained and all pushed records returned. In every other run the read
under way reports the end over the records that are still in the ring.
-/
theorem eof_drained_of_unraced {start : Sys} {trace : List Event} {register : Int}
    (accepted : lfuRingInit params register = 0) (fresh : start.Fresh)
    : (∀ rc, Run (Guarded (Step env params) DoneUnraced) start trace s →
        Step env params s (.readEnd rc) s' →
          s.head = s.tail ∧ recordsRead trace = s.pushed)
      ∧ (Step env params s .doneSet s' → EofRace s →
          ∃ leaving idle, Run (Step env params) s' [.tau] leaving
            ∧ Step env params leaving (.readEnd leaving.err) idle
            ∧ leaving.head ≠ leaving.tail) := by
  constructor
  · intro rc run step
    have inv : Fifo params s := Fifo.run (lfuRingInit_sound accepted) fresh run.unguarded
    have returned := returned_eq_recordsRead fresh run.unguarded
    have leaving : s.reader = .loadErr := by
      cases step with
      | producer step => cases step
      | reader step =>
          cases step with
          | loadErr at_ => exact at_
      | outside step => cases step
    have empty := (EofExact.run fresh run).2.decided leaving
    have all := inv.handedOut_eq empty
    rw [Sys.handedOut, leaving] at all
    exact ⟨empty, by rw [← returned, ← all]; simp [Reader.taken]⟩
  · rintro step ⟨⟨want, at_⟩, differ⟩
    cases step with
    | producer step =>
        cases step with
        | setDone pc =>
            exact ⟨_, _, Run.nil.snoc (.reader (.doneYes at_ rfl)),
              .reader (.loadErr rfl), differ⟩
    | reader step => cases step
    | outside step => cases step

/-- One record is pushed, read back, and the next read reports the end. -/
theorem eof_drained_of_unraced_oneRecord
    : ∃ trace s, Run (Guarded (Step exactNames fourSlots) DoneUnraced) {} trace s
        ∧ s.pushed.length = 1 ∧ s.head = s.tail ∧ recordsRead trace = s.pushed := by
  have run : Run (Guarded (Step exactNames fourSlots) DoneUnraced) {} [] {} := .nil
  have run := run.snoc ⟨.reader (.call rfl 168 rfl (by decide)), nofun⟩
  have run := run.snoc ⟨.reader (.startNew rfl rfl), nofun⟩
  have run := run.snoc ⟨.producer (.setupOk rfl), nofun⟩
  have run := run.snoc ⟨.producer (.loadOk rfl 0), nofun⟩
  have run := run.snoc ⟨.producer (.topGo rfl rfl), nofun⟩
  have run := run.snoc ⟨.producer (.recObject rfl 7 default noXattrs), nofun⟩
  have run := run.snoc ⟨.producer (.stallFree rfl (by decide)), nofun⟩
  have run := run.snoc ⟨.producer (.fill rfl), nofun⟩
  have run := run.snoc ⟨.producer (.publish rfl), nofun⟩
  have run := run.snoc ⟨.producer (.wakeTestYes rfl (by decide)), nofun⟩
  have run := run.snoc ⟨.producer (.wake rfl), nofun⟩
  have run := run.snoc ⟨.producer (.nextEnd rfl 1 (by decide)), nofun⟩
  have run := run.snoc ⟨.producer (.drained rfl none), nofun⟩
  have run := run.snoc ⟨.producer (.setErr rfl), nofun⟩
  have run := run.snoc ⟨.producer (.setDone rfl), fun _ race => nomatch race.1⟩
  have run := run.snoc ⟨.reader (.headSome rfl (by decide)), nofun⟩
  have run := run.snoc ⟨.reader (.copyOne rfl (by decide)), nofun⟩
  have run := run.snoc ⟨.reader (.copyDone rfl (by decide)), nofun⟩
  have run := run.snoc ⟨.reader (.storeTail rfl), nofun⟩
  have run := run.snoc ⟨.reader (.wakeTestYes rfl (by decide)), nofun⟩
  have run := run.snoc ⟨.reader (.wake rfl), nofun⟩
  have run := run.snoc ⟨.reader (.call rfl 168 rfl (by decide)), nofun⟩
  have run := run.snoc ⟨.reader (.startOld rfl rfl), nofun⟩
  have run := run.snoc ⟨.reader (.headNone rfl (by decide)), nofun⟩
  have run := run.snoc ⟨.reader (.doneYes rfl rfl), nofun⟩
  have accepted : lfuRingInit fourSlots 0 = 0 := by decide
  have exact_ := (eof_drained_of_unraced accepted sys_fresh).1 0 run (.reader (.loadErr rfl))
  exact ⟨_, _, run, rfl, exact_⟩

/-- The reader finds the ring empty, the producer pushes its only record and finishes,
and the reader then sees `done`: end of file, with the record still in the ring.
-/
theorem eof_race_loses_record
    : ∃ trace s s', lfuRingInit fourSlots 0 = 0
        ∧ Run (Step exactNames fourSlots) {} trace s
        ∧ Step exactNames fourSlots s (.readEnd 0) s'
        ∧ s.head ≠ s.tail ∧ s.pushed.length = 1 ∧ recordsRead trace = [] := by
  have run : Run (Step exactNames fourSlots) {} [] {} := .nil
  have run := run.snoc (.reader (.call rfl 168 rfl (by decide)))
  have run := run.snoc (.reader (.startNew rfl rfl))
  have run := run.snoc (.reader (.headNone rfl (by decide)))
  have run := run.snoc (.producer (.setupOk rfl))
  have run := run.snoc (.producer (.loadOk rfl 0))
  have run := run.snoc (.producer (.topGo rfl rfl))
  have run := run.snoc (.producer (.recObject rfl 7 default noXattrs))
  have run := run.snoc (.producer (.stallFree rfl (by decide)))
  have run := run.snoc (.producer (.fill rfl))
  have run := run.snoc (.producer (.publish rfl))
  have run := run.snoc (.producer (.wakeTestYes rfl (by decide)))
  have run := run.snoc (.producer (.wake rfl))
  have run := run.snoc (.producer (.nextEnd rfl 1 (by decide)))
  have run := run.snoc (.producer (.drained rfl none))
  have run := run.snoc (.producer (.setErr rfl))
  have run := run.snoc (.producer (.setDone rfl))
  have run := run.snoc (.reader (.doneYes rfl rfl))
  exact ⟨_, _, _, by decide, run, .reader (.loadErr rfl), by decide, rfl, rfl⟩

end LfuScan.Ring
