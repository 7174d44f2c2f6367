import LfuScan.Ring.EndOfFile

/-! How a `read()` can return: with at least one record, with a negative code, or with the
code the producer left behind, which no later step changes.
-/

namespace LfuScan.Ring

open LfuScan.Lustre LfuScan.Filter LfuScan.Foundations

variable {env : Platform} {params : RingParams} {s s' : Sys} {event : Event}
  {trace : List Event}

/-- Inside `read()` at least one record is wanted, and one that is copying has some. -/
def Reader.Wants : Reader → Prop
  | .start want | .loadHead want | .loadDone want | .waitHead want _ | .waitDone want _
  | .prepare want | .sched want => want ≠ 0
  | .copy _ run _ => run ≠ 0
  | .storeTail _ got | .wakeTest got | .wake got => got ≠ []
  | .idle | .loadErr => True

theorem min_ne_zero {a b : UInt64} (left : a ≠ 0) (right : b ≠ 0) : min a b ≠ 0 := by
  rcases (Std.min_eq_or : min a b = a ∨ min a b = b) with same | same
  · rwa [same]
  · rwa [same]

theorem readRun_ne_zero (sound : params.Sound) {r : LfuRing} {want : UInt64}
    (wanted : want ≠ 0) (some_ : lfuRingAvail r > 0)
    : readRun params r want ≠ 0 := by
  have slot : (ringSlot params r.tail).toNat < params.ringRecs.toUInt64.toNat := by
    have residue := ringSlot_toNat sound r.tail.toNat
    rw [UInt64.ofNat_toNat] at residue
    rw [residue, UInt32.toNat_toUInt64]
    exact Nat.mod_lt _ sound.ringRecs_pos
  have rest : params.ringRecs.toUInt64 - ringSlot params r.tail ≠ 0 := by
    rw [Ne, ← UInt64.toNat_inj,
      UInt64.toNat_sub_of_le _ _ (UInt64.le_iff_toNat_le.mpr (Nat.le_of_lt slot))]
    exact Nat.sub_ne_zero_of_lt slot
  have avail : lfuRingAvail r ≠ 0 := fun none_ => absurd some_ (by simp [none_])
  exact min_ne_zero (min_ne_zero avail wanted) rest

/-- What the reads so far have returned. -/
structure ReadsSo (trace : List Event) (s : Sys) : Prop where
  wants : s.reader.Wants
  records : ∀ records, .readRecords records ∈ trace → records ≠ []
  failures : ∀ rc, .readFail rc ∈ trace → rc < 0
  ends : ∀ rc, .readEnd rc ∈ trace → s.done = true ∧ s.err = rc

theorem ReaderStep.wants (sound : params.Sound) (wants : s.reader.Wants)
    (step : ReaderStep params s event s')
    : s'.reader.Wants := by
  cases step with
  | callShort at_ => exact wants
  | call at_ len opened whole => exact whole
  | headSome at_ some_ =>
      rw [at_] at wants
      exact readRun_ne_zero sound wants some_
  | copyDone at_ full =>
      rw [at_] at wants
      rintro rfl
      exact wants (UInt64.toNat_inj.mp full.symm)
  | _ at_ =>
      rw [at_] at wants
      first | exact wants | trivial

/-- A reader's step that ends a `read()` shows how. -/
theorem ReaderStep.shows (wants : s.reader.Wants) (step : ReaderStep params s event s')
    : (∀ records, event = .readRecords records → records ≠ [])
      ∧ (∀ rc, event = .readFail rc → rc < 0)
      ∧ ∀ rc, event = .readEnd rc → s.reader = .loadErr ∧ s.err = rc := by
  cases step with
  | wakeTestNo at_ tight =>
      rw [at_] at wants
      exact ⟨fun _ same => by cases same; exact wants, nofun, nofun⟩
  | wake at_ =>
      rw [at_] at wants
      exact ⟨fun _ same => by cases same; exact wants, nofun, nofun⟩
  | loadErr at_ => exact ⟨nofun, nofun, fun _ same => by cases same; exact ⟨at_, rfl⟩⟩
  | startFail at_ rc first failed =>
      exact ⟨nofun, fun _ same => by cases same; exact failed, nofun⟩
  | callShort at_ | waitDoneIntr at_ | copyFault at_ =>
      exact ⟨nofun, fun _ same => by cases same; decide, nofun⟩
  | _ => exact ⟨nofun, nofun, nofun⟩

theorem ProducerStep.keeps_err (place : DonePlace s) (done : s.done = true)
    (step : ProducerStep env params s event s')
    : s'.done = true ∧ s'.err = s.err := by
  have finished : s.producer.finished = true := place.done ▸ done
  cases step with
  | setErr at_ | setDone at_ => simp [at_, Producer.finished] at finished
  | _ => exact ⟨done, rfl⟩

theorem ReadsSo.step (sound : params.Sound) (place : DonePlace s) (inv : ReadsSo trace s)
    (step : Step env params s event s')
    : ReadsSo (trace ++ [event]) s' := by
  have keeps (done : s.done = true) : s'.done = true ∧ s'.err = s.err := by
    cases step with
    | producer step => exact step.keeps_err place done
    | reader step => cases step <;> exact ⟨done, rfl⟩
    | outside step => cases step <;> exact ⟨done, rfl⟩
  have shows
      : (∀ records, event = .readRecords records → records ≠ [])
        ∧ (∀ rc, event = .readFail rc → rc < 0)
        ∧ ∀ rc, event = .readEnd rc → s.reader = .loadErr ∧ s.err = rc := by
    cases step with
    | producer step => cases step <;> exact ⟨nofun, nofun, nofun⟩
    | reader step => exact step.shows inv.wants
    | outside step => cases step <;> exact ⟨nofun, nofun, nofun⟩
  exact {
    wants := by
      cases step with
      | producer step => rw [step.tail_reader.2]; exact inv.wants
      | reader step => exact step.wants sound inv.wants
      | outside step => cases step <;> exact inv.wants
    records := by
      intro records member
      rcases List.mem_append.mp member with old | new
      · exact inv.records records old
      · exact shows.1 records (List.mem_singleton.mp new).symm
    failures := by
      intro rc member
      rcases List.mem_append.mp member with old | new
      · exact inv.failures rc old
      · exact shows.2.1 rc (List.mem_singleton.mp new).symm
    ends := by
      intro rc member
      rcases List.mem_append.mp member with old | new
      · obtain ⟨done, code⟩ := inv.ends rc old
        exact ⟨(keeps done).1, (keeps done).2.trans code⟩
      · obtain ⟨leaving, code⟩ := shows.2.2 rc (List.mem_singleton.mp new).symm
        have done := place.deciding leaving
        exact ⟨(keeps done).1, (keeps done).2.trans code⟩
  }

theorem ReadsSo.run {start : Sys} (sound : params.Sound) (fresh : start.Fresh)
    (run : Run (Step env params) start trace s)
    : ReadsSo trace s := by
  have both : DonePlace s ∧ ReadsSo trace s := by
    refine run.traceInvariant (fun trace s => DonePlace s ∧ ReadsSo trace s) ?_ ?_
    · refine ⟨DonePlace.run fresh (.nil : Run (Step env params) start [] start), ?_⟩
      refine ⟨?_, nofun, nofun, nofun⟩
      rw [fresh.reader]
      trivial
    · intro before state event next ⟨place, inv⟩ taken
      exact ⟨place.step taken, inv.step sound place taken⟩
  exact both.2

end LfuScan.Ring
