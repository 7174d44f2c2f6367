import LfuScan.Ring.EndOfFile

/-! What the code a `read()` ends with says about the enumeration behind it. -/

namespace LfuScan.Ring

open LfuScan.Lustre LfuScan.Filter LfuScan.Foundations

/-- The iterator has reported the end of the table. -/
def EndReported (trace : List Event) : Prop :=
  ∃ rc > 0, .loadRet rc ∈ trace ∨ .nextRet rc ∈ trace

/-- The code the producer is about to publish, or has published. -/
def Sys.final (s : Sys) : Option Int :=
  match s.producer with
  | .drained rc | .setErr rc => some rc
  | .setDone | .wakeAll | .parked => some s.err
  | _ => none

/-- The producer has not called `load()` yet. -/
def Producer.beforeLoad : Producer → Bool
  | .unborn | .setup | .load => true
  | _ => false

/-- How the producer's final code comes about. -/
structure FinalCode (trace : List Event) (s : Sys) : Prop where
  zero : s.final = some 0 →
    s.stop = true ∨ EndReported trace ∨ ∃ rc < 0, .nextRet rc ∈ trace
  load : ∀ rc < 0, .loadRet rc ∈ trace → s.final = some rc
  next : ∀ rc < 0, .nextRet rc ∈ trace → s.final = some 0
  notYet : s.producer.beforeLoad = true →
    (∀ rc, .loadRet rc ∉ trace) ∧ ∀ rc < 0, .nextRet rc ∉ trace

variable {env : Platform} {params : RingParams} {s s' : Sys} {event : Event}
  {trace : List Event}

theorem gather_error {needs : UInt32} {reply : XattrName → XaReply} {st : LfuRingStats}
    {refused : Refused} (failed : gather needs reply st = .error refused)
    : refused.rc = -eopnotsupp := by
  have one : ∀ name g, gatherOne needs reply name g = .error refused →
      refused.rc = -eopnotsupp := by
    intro name g failed
    unfold gatherOne at failed
    split at failed
    · cases failed
    · simp only at failed
      split at failed
      · rename_i unsupported
        cases failed
        exact beq_iff_eq.mp unsupported
      · cases failed
  unfold gather at failed
  simp only [bind, Except.bind] at failed
  repeat
    split at failed
    · rename_i stuck
      cases failed
      exact one _ _ stuck
  exact one _ _ failed

/-- The only error that ends the scan from inside the filter. -/
theorem lfuFilterObject_error {r : LfuRing} {reply : XattrName → XaReply} {rec : LfuRec}
    {now rc : Int} (failed : (lfuFilterObject env r reply rec now).verdict = .error rc)
    : rc = -eopnotsupp := by
  have way := lfuFilterObject_exit env r reply rec now
  generalize lfuFilterObject env r reply rec now = result at way failed
  cases way with
  | passed | rejected => cases failed
  | stuck needs refused stuck =>
      cases failed
      exact gather_error stuck
  | judged needs f g =>
      rw [judgeGathered_eq] at failed
      cases failed

-----------------------------------------------------------------------------------------
-- Every step accounts for the final code
-----------------------------------------------------------------------------------------

/-- The event is no answer of `load()` or `next()`. -/
def Event.silent : Event → Bool
  | .loadRet _ | .nextRet _ => false
  | _ => true

theorem loadRet_mem_of_silent {rc : Int} (silent : event.silent = true)
    (member : .loadRet rc ∈ trace ++ [event])
    : .loadRet rc ∈ trace := by
  rcases List.mem_append.mp member with old | new
  · exact old
  · rw [← List.mem_singleton.mp new] at silent
    cases silent

theorem nextRet_mem_of_silent {rc : Int} (silent : event.silent = true)
    (member : .nextRet rc ∈ trace ++ [event])
    : .nextRet rc ∈ trace := by
  rcases List.mem_append.mp member with old | new
  · exact old
  · rw [← List.mem_singleton.mp new] at silent
    cases silent

theorem EndReported.snoc (reported : EndReported trace) : EndReported (trace ++ [event]) := by
  obtain ⟨rc, positive, old⟩ := reported
  exact ⟨rc, positive,
    old.imp (List.mem_append_left _) (List.mem_append_left _)⟩

/-- Nothing about the final code changes. -/
theorem FinalCode.keep (inv : FinalCode trace s) (silent : event.silent = true)
    (final : s'.final = s.final) (stop : s.stop = true → s'.stop = true)
    (later : s'.producer.beforeLoad = true → s.producer.beforeLoad = true)
    : FinalCode (trace ++ [event]) s' where
  zero := by
    intro zero
    rw [final] at zero
    rcases inv.zero zero with stopped | reported | ⟨rc, negative, old⟩
    · exact .inl (stop stopped)
    · exact .inr (.inl reported.snoc)
    · exact .inr (.inr ⟨rc, negative, List.mem_append_left _ old⟩)
  load := by
    intro rc negative member
    rw [final]
    exact inv.load rc negative (loadRet_mem_of_silent silent member)
  next := by
    intro rc negative member
    rw [final]
    exact inv.next rc negative (nextRet_mem_of_silent silent member)
  notYet := by
    intro before
    obtain ⟨noLoad, noNext⟩ := inv.notYet (later before)
    exact ⟨
      fun rc member => noLoad rc (loadRet_mem_of_silent silent member),
      fun rc negative member =>
        noNext rc negative (nextRet_mem_of_silent silent member)
    ⟩

/-- The producer settles on a code, without having been told by `load()` or `next()`. -/
theorem FinalCode.settle (inv : FinalCode trace s) (silent : event.silent = true)
    (open_ : s.final = none) (zero : s'.final = some 0 → s'.stop = true)
    (later : s'.producer.beforeLoad = false)
    : FinalCode (trace ++ [event]) s' where
  zero := fun settled => .inl (zero settled)
  load := by
    intro rc negative member
    have before := inv.load rc negative (loadRet_mem_of_silent silent member)
    simp [open_] at before
  next := by
    intro rc negative member
    have before := inv.next rc negative (nextRet_mem_of_silent silent member)
    simp [open_] at before
  notYet := fun before => by simp [later] at before

/-- The answer of `load()`, which comes once. -/
theorem FinalCode.loaded {rc : Int} (inv : FinalCode trace s)
    (at_ : s.producer.beforeLoad = true) (later : s'.producer.beforeLoad = false)
    (zero : s'.final = some 0 → rc > 0) (negative : rc < 0 → s'.final = some rc)
    : FinalCode (trace ++ [.loadRet rc]) s' where
  zero := fun settled => .inr (.inl ⟨rc, zero settled, .inl (by simp)⟩)
  load := by
    intro code isNegative member
    rcases List.mem_append.mp member with old | new
    · exact absurd old ((inv.notYet at_).1 code)
    · have same : code = rc := by simpa using new
      subst same
      exact negative isNegative
  next := by
    intro code isNegative member
    have old : .nextRet code ∈ trace := by simpa using member
    exact absurd old ((inv.notYet at_).2 code isNegative)
  notYet := fun before => by simp [later] at before

/-- An answer of `next()`; the loop ends on any but zero, and always with code zero. -/
theorem FinalCode.advanced {rc : Int} (inv : FinalCode trace s) (open_ : s.final = none)
    (later : s'.producer.beforeLoad = false) (zero : s'.final = some 0 ↔ rc ≠ 0)
    : FinalCode (trace ++ [.nextRet rc]) s' where
  zero := by
    intro settled
    rcases Int.lt_trichotomy rc 0 with negative | isZero | positive
    · exact .inr (.inr ⟨rc, negative, by simp⟩)
    · exact absurd isZero (zero.mp settled)
    · exact .inr (.inl ⟨rc, positive, .inr (by simp)⟩)
  load := by
    intro code negative member
    have before := inv.load code negative (by simpa using member)
    simp [open_] at before
  next := by
    intro code negative member
    rcases List.mem_append.mp member with old | new
    · have before := inv.next code negative old
      simp [open_] at before
    · have same : code = rc := by simpa using new
      exact zero.mpr (by omega)
  notYet := fun before => by simp [later] at before

theorem FinalCode.producerStep (inv : FinalCode trace s)
    (step : ProducerStep env params s event s')
    : FinalCode (trace ++ [event]) s' := by
  cases step with
  | setupOk at_ =>
      exact inv.keep rfl (by simp [Sys.final, at_]) id (by simp [at_, Producer.beforeLoad])
  | setupFail at_ rc failed =>
      refine inv.settle rfl (by simp [Sys.final, at_]) ?_ rfl
      intro zero
      simp only [Sys.final, Option.some.injEq] at zero
      omega
  | loadOk at_ now =>
      exact inv.loaded (by simp [at_, Producer.beforeLoad]) rfl nofun (by omega)
  | loadEmpty at_ rc empty =>
      exact inv.loaded (by simp [at_, Producer.beforeLoad]) rfl (fun _ => empty) (by omega)
  | loadFail at_ rc failed =>
      refine inv.loaded (by simp [at_, Producer.beforeLoad]) rfl ?_ (fun _ => rfl)
      intro zero
      simp only [Sys.final, Option.some.injEq] at zero
      omega
  | nextOk at_ => exact inv.advanced (by simp [Sys.final, at_]) rfl (by simp [Sys.final])
  | nextEnd at_ rc ended =>
      exact inv.advanced (by simp [Sys.final, at_]) rfl (by simp [Sys.final, ended])
  | topStop at_ stop | waitedStop at_ stop =>
      exact inv.settle rfl (by simp [Sys.final, at_]) (fun _ => stop) rfl
  | recObject at_ oid dor reply =>
      refine inv.settle rfl (by simp [Sys.final, at_]) ?_ ?_
      · refine afterFilter_cases
          (fun p => ({ s with producer := p } : Sys).final = some 0 → s.stop = true)
          ?_ (fun _ => nofun) nofun
        intro rc failed zero
        simp only [Sys.final, Option.some.injEq] at zero
        rw [lfuFilterObject_error failed] at zero
        exact absurd zero (by decide)
      · exact afterFilter_cases (·.beforeLoad = false) (fun _ _ => rfl) (fun _ => rfl) rfl
  | _ at_ => exact inv.keep rfl (by simp [Sys.final, at_]) id (by simp [Producer.beforeLoad])

/-- A device is read only while it is open, and only the close stops the producer. -/
structure OpenWhileRead (s : Sys) : Prop where
  stopped : s.stop = true → s.started = true ∧ s.closed = true
  reading : s.closed = true → s.reader = .idle

theorem OpenWhileRead.step (inv : OpenWhileRead s) (step : Step env params s event s')
    : OpenWhileRead s' := by
  cases step with
  | producer step =>
      cases step with
      | _ => exact ⟨inv.stopped, inv.reading⟩
  | reader step =>
      cases step with
      | callShort => exact inv
      | call at_ len opened whole =>
          exact ⟨inv.stopped, fun closed => by simp [opened] at closed⟩
      | startNew at_ first =>
          refine ⟨fun stop => ⟨rfl, (inv.stopped stop).2⟩, ?_⟩
          exact fun closed => absurd (inv.reading closed) (by rw [at_]; nofun)
      | _ at_ =>
          refine ⟨inv.stopped, ?_⟩
          exact fun closed => absurd (inv.reading closed) (by rw [at_]; nofun)
  | outside step =>
      cases step with
      | release at_ opened => exact ⟨fun started => ⟨started, rfl⟩, fun _ => at_⟩
      | _ => exact ⟨inv.stopped, inv.reading⟩

theorem FinalCode.step (place : DonePlace s) (openRead : OpenWhileRead s)
    (inv : FinalCode trace s) (step : Step env params s event s')
    : FinalCode (trace ++ [event]) s' := by
  cases step with
  | producer step => exact inv.producerStep step
  | reader step =>
      cases step with
      | startNew at_ first =>
          have unborn := place.unborn first
          exact inv.keep rfl (by simp [Sys.final, unborn]) id
            (fun _ => by simp [unborn, Producer.beforeLoad])
      | _ => exact inv.keep rfl rfl id id
  | outside step =>
      cases step with
      | release at_ opened =>
          exact inv.keep rfl rfl (fun stop => (openRead.stopped stop).1) id
      | _ => exact inv.keep rfl rfl id id

/-- What a whole run establishes about the final code. -/
structure Accounted (trace : List Event) (s : Sys) : Prop where
  place : DonePlace s
  openRead : OpenWhileRead s
  final : FinalCode trace s

theorem Accounted.run {start : Sys} (fresh : start.Fresh)
    (run : Run (Step env params) start trace s)
    : Accounted trace s := by
  refine run.traceInvariant Accounted ?_ ?_
  · have none_ : Run (Step env params) start [] start := .nil
    refine ⟨DonePlace.run fresh none_, ⟨?_, fun _ => fresh.reader⟩, ⟨?_, ?_, ?_, ?_⟩⟩
    · intro stop
      simp [fresh.stop] at stop
    · intro settled
      simp [Sys.final, fresh.producer] at settled
    all_goals simp
  · intro before state event next inv taken
    exact ⟨
      inv.place.step taken,
      inv.openRead.step taken,
      inv.final.step inv.place inv.openRead taken
    ⟩

/-- A `read()` that reports the end returns the producer's final code, and the device was
not being closed.
-/
theorem Accounted.readEnd {rc : Int} (inv : Accounted trace s)
    (step : Step env params s (.readEnd rc) s')
    : s.final = some rc ∧ s.stop = false := by
  cases step with
  | producer step => cases step
  | outside step => cases step
  | reader step =>
      cases step with
      | loadErr at_ =>
          constructor
          · have finished : s.producer.finished = true := by
              rw [← inv.place.done]
              exact inv.place.deciding at_
            unfold Sys.final
            cases phase : s.producer <;> simp_all [Producer.finished]
          · cases stop : s.stop with
            | false => rfl
            | true =>
                have idle := inv.openRead.reading (inv.openRead.stopped stop).2
                rw [at_] at idle
                cases idle

/-- The end of file contract holds of a run exactly when `next()` has not failed in it. -/
theorem readEnd_complete_iff {rc : Int} (inv : Accounted trace s)
    (step : Step env params s (.readEnd rc) s')
    : ((rc = 0 → EndReported trace)
        ∧ ∀ code < 0, .loadRet code ∈ trace ∨ .nextRet code ∈ trace → rc < 0)
      ↔ ∀ code < 0, .nextRet code ∉ trace := by
  obtain ⟨final, running⟩ := inv.readEnd step
  constructor
  · rintro ⟨_, negatives⟩ code negative member
    have bad := negatives code negative (.inr member)
    have zero := inv.final.next code negative member
    rw [final, Option.some.injEq] at zero
    omega
  · intro sound
    constructor
    · intro zero
      rcases inv.final.zero (zero ▸ final) with stopped | reported | ⟨code, negative, member⟩
      · simp [running] at stopped
      · exact reported
      · exact absurd member (sound code negative)
    · rintro code negative (loaded | advanced)
      · have same := inv.final.load code negative loaded
        rw [final, Option.some.injEq] at same
        omega
      · exact absurd advanced (sound code negative)

end LfuScan.Ring
