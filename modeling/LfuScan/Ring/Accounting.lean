import LfuScan.Ring.EndOfFile
import LfuScan.Ring.Marks

/-! The books of the producer: what became of every object it has seen. An object is counted
when it is read and again when it leaves, and between the two the producer carries it.
-/

namespace LfuScan.Ring

open LfuScan.Lustre LfuScan.Filter LfuScan.Foundations

variable {env : Platform} {params : RingParams} {s s' : Sys} {event : Event}

-----------------------------------------------------------------------------------------
-- What the filter counts
-----------------------------------------------------------------------------------------

/-- The counters of the books are the same. -/
structure SameCounts (before after : LfuRingStats) : Prop where
  seen : after.rsSeen = before.rsSeen
  filtered0 : after.rsFiltered0 = before.rsFiltered0
  filtered1 : after.rsFiltered1 = before.rsFiltered1
  unknown : after.rsUnknown = before.rsUnknown
  emitted : after.rsEmitted = before.rsEmitted

theorem SameCounts.refl (st : LfuRingStats) : SameCounts st st := ⟨rfl, rfl, rfl, rfl, rfl⟩

theorem SameCounts.trans {first second third : LfuRingStats} (left : SameCounts first second)
    (right : SameCounts second third)
    : SameCounts first third :=
  ⟨right.seen.trans left.seen, right.filtered0.trans left.filtered0,
    right.filtered1.trans left.filtered1, right.unknown.trans left.unknown,
    right.emitted.trans left.emitted⟩

theorem lfuXaGet_counts (st : LfuRingStats) (reply : XaReply)
    : SameCounts st (lfuXaGet st reply).st := by
  unfold lfuXaGet
  split
  · exact .refl st
  · split
    · exact .refl st
    · split
      · exact ⟨rfl, rfl, rfl, rfl, rfl⟩
      · split
        · exact .refl st
        · exact ⟨rfl, rfl, rfl, rfl, rfl⟩

/-- The counters after gathering, whether it went through or not. -/
def gatheredStats : Except Refused Gathered → LfuRingStats
  | .ok g => g.st
  | .error refused => refused.st

theorem gatherOne_counts (needs : UInt32) (reply : XattrName → XaReply) (name : XattrName)
    (g : Gathered)
    : SameCounts g.st (gatheredStats (gatherOne needs reply name g)) := by
  unfold gatherOne
  split
  · exact .refl g.st
  · simp only
    split <;> exact lfuXaGet_counts g.st (reply name)

theorem gather_counts (needs : UInt32) (reply : XattrName → XaReply) (st : LfuRingStats)
    : SameCounts st (gatheredStats (gather needs reply st)) := by
  -- one more attribute, after those that went through
  have more {before : Except Refused Gathered} (name : XattrName)
      (same : SameCounts st (gatheredStats before))
      : SameCounts st (gatheredStats (before >>= gatherOne needs reply name)) := by
    cases before with
    | error failed => exact same
    | ok g => exact same.trans (gatherOne_counts needs reply name g)
  have som : SameCounts st (gatheredStats (gatherOne needs reply .som { st })) :=
    gatherOne_counts needs reply .som { st }
  have three := more .link (more .lmv (more .lov som))
  simpa only [gather, bind_assoc] using three

/-- What a verdict adds to the counters. -/
structure Counted (m : LfuMatch) (before after : LfuRingStats) : Prop where
  seen : after.rsSeen = before.rsSeen
  emitted : after.rsEmitted = before.rsEmitted
  rejected : after.rsFiltered0 + after.rsFiltered1
    = before.rsFiltered0 + before.rsFiltered1 + if m = .noMatch then 1 else 0
  unknown : after.rsUnknown = before.rsUnknown + if m = .unknown then 1 else 0

theorem Counted.matched (st : LfuRingStats) : Counted .matched st st :=
  ⟨rfl, rfl, by simp, by simp⟩

theorem SameCounts.counted {before middle after : LfuRingStats} {m : LfuMatch}
    (same : SameCounts before middle) (counted : Counted m middle after)
    : Counted m before after :=
  ⟨counted.seen.trans same.seen, counted.emitted.trans same.emitted,
    by rw [counted.rejected, same.filtered0, same.filtered1],
    by rw [counted.unknown, same.unknown]⟩

theorem judgeGathered_counts (f : LfuFilter) (rec : LfuRec) (g : Gathered) {m : LfuMatch}
    (judged : (judgeGathered env f rec g).verdict = .ok m)
    : Counted m g.st (judgeGathered env f rec g).st := by
  rw [judgeGathered_eq] at judged ⊢
  cases judged
  exact ⟨rfl, rfl, (UInt64.add_assoc _ _ _).symm, rfl⟩

theorem judgeGathered_emitted (f : LfuFilter) (rec : LfuRec) (g : Gathered)
    : (judgeGathered env f rec g).st.rsEmitted = g.st.rsEmitted := by
  rw [judgeGathered_eq]

/-- The filter counts an object under its verdict, and never as emitted. -/
theorem lfuFilterObject_counts (env : Platform) (r : LfuRing) (reply : XattrName → XaReply)
    (rec : LfuRec) (now : Int)
    : (lfuFilterObject env r reply rec now).st.rsEmitted = r.st.rsEmitted
      ∧ ∀ m, (lfuFilterObject env r reply rec now).verdict = .ok m →
          Counted m r.st (lfuFilterObject env r reply rec now).st := by
  have way := lfuFilterObject_exit env r reply rec now
  generalize lfuFilterObject env r reply rec now = result at way ⊢
  cases way with
  | passed =>
      refine ⟨rfl, ?_⟩
      rintro m ⟨⟩
      exact .matched r.st
  | rejected =>
      refine ⟨rfl, ?_⟩
      rintro m ⟨⟩
      exact ⟨rfl, rfl, by simp only [if_true]; grind, by simp⟩
  | stuck needs refused failed =>
      have gathered := gather_counts needs reply r.st
      rw [failed] at gathered
      exact ⟨gathered.emitted, nofun⟩
  | judged needs f g went =>
      have gathered := gather_counts needs reply r.st
      rw [went] at gathered
      refine ⟨(judgeGathered_emitted f rec g).trans gathered.emitted, fun m judged => ?_⟩
      exact gathered.counted (judgeGathered_counts f rec g judged)

/-- The record the producer has built and not pushed yet. -/
def Producer.inFlight : Producer → List LfuWireRec
  | .stallTest wr | .stallWake wr | .waitFree wr _ | .waitStop wr _ | .prepare wr
  | .sched wr | .waited wr | .fill wr | .publish wr => [wr]
  | _ => []

/-- The producer has not left its loop. -/
def Producer.looping : Producer → Bool
  | .drained _ | .setErr _ | .setDone | .wakeAll | .parked => false
  | _ => true

/-- A record tagged as undecided. -/
def LfuWireRec.tagged (wr : LfuWireRec) : Bool := wr.wrLfu &&& lfuWrUnknown != 0

/-- What the producer has counted: every push, and, until it leaves its loop, every object
once for having been seen and once for what became of it.
-/
structure Books (s : Sys) : Prop where
  emitted : s.st.rsEmitted = s.head
  head : s.head = UInt64.ofNat s.pushed.length
  seen : s.producer.looping = true →
    s.st.rsSeen
      = s.st.rsFiltered0 + s.st.rsFiltered1 + s.st.rsEmitted
        + (if s.emitUnknown then 0 else s.st.rsUnknown)
        + UInt64.ofNat s.producer.inFlight.length
  tagged : s.producer.looping = true → s.emitUnknown = true →
    UInt64.ofNat ((s.pushed ++ s.producer.inFlight).countP (·.tagged)) = s.st.rsUnknown

/-- Everything a step can do to the books. -/
inductive BooksEffect (env : Platform) (s s' : Sys) : Prop
  | kept (same : SameCounts s.st s'.st) (head : s'.head = s.head)
    (pushed : s'.pushed = s.pushed) (mode : s'.emitUnknown = s.emitUnknown)
    (flight
      : s'.producer.looping = true →
        s.producer.looping = true ∧ s'.producer.inFlight = s.producer.inFlight)
  | object (at_ : s.producer = .recAttr) (oid : UInt64) (dor : DtOtableRec)
    (reply : XattrName → XaReply)
    (result
      : s'
        = {
            s with
            st := (s.filterObject env oid dor reply).st
            producer := afterFilter s.emitUnknown oid dor (s.filterObject env oid dor reply)
          })
  | publish (wr : LfuWireRec) (at_ : s.producer = .publish wr)
    (result
      : s'
        = {
            s with
            head := s.head + 1
            produced := s.produced + 1
            st := { s.st with rsEmitted := s.st.rsEmitted + 1 }
            pushed := s.pushed ++ [wr]
            producer := .wakeTest
          })

theorem takeIterStats_counts (st : LfuRingStats) (dos : Option DtOtableStats)
    : SameCounts st (takeIterStats st dos) := by
  cases dos with
  | none => exact .refl st
  | some dos => exact ⟨rfl, rfl, rfl, rfl, rfl⟩

theorem ProducerStep.booksEffect (step : ProducerStep env params s event s')
    : BooksEffect env s s' := by
  cases step with
  | recObject at_ oid dor reply => exact .object at_ oid dor reply rfl
  | publish at_ => exact .publish _ at_ rfl
  | drained at_ dos => exact .kept (takeIterStats_counts s.st dos) rfl rfl rfl nofun
  | _ at_ =>
      refine .kept ⟨rfl, rfl, rfl, rfl, rfl⟩ rfl rfl rfl ?_
      simp [at_, Producer.looping, Producer.inFlight]

theorem Step.booksEffect (place : DonePlace s) (step : Step env params s event s')
    : BooksEffect env s s' := by
  cases step with
  | producer step => exact step.booksEffect
  | reader step =>
      cases step with
      | startNew at_ first =>
          refine .kept (.refl s.st) rfl rfl rfl ?_
          simp [place.unborn first, Producer.looping, Producer.inFlight]
      | _ => exact .kept (.refl s.st) rfl rfl rfl (fun looping => ⟨looping, rfl⟩)
  | outside step =>
      cases step with
      | _ => exact .kept (.refl s.st) rfl rfl rfl (fun looping => ⟨looping, rfl⟩)

-----------------------------------------------------------------------------------------
-- Steps and runs
-----------------------------------------------------------------------------------------

theorem Books.kept (inv : Books s) (same : SameCounts s.st s'.st) (head : s'.head = s.head)
    (pushed : s'.pushed = s.pushed) (mode : s'.emitUnknown = s.emitUnknown)
    (flight
      : s'.producer.looping = true →
        s.producer.looping = true ∧ s'.producer.inFlight = s.producer.inFlight)
    : Books s' where
  emitted := by rw [same.emitted, head, inv.emitted]
  head := by rw [head, pushed, inv.head]
  seen := by
    intro looping
    obtain ⟨before, carried⟩ := flight looping
    rw [same.seen, same.filtered0, same.filtered1, same.emitted, same.unknown, mode, carried]
    exact inv.seen before
  tagged := by
    intro looping emitting
    obtain ⟨before, carried⟩ := flight looping
    rw [pushed, same.unknown, carried]
    exact inv.tagged before (mode ▸ emitting)

/-- The record of a filtered object carries the tag exactly when the filter could not
decide it.
-/
theorem filled_tagged (oid : UInt64) (dor : DtOtableRec) (reply : XattrName → XaReply)
    {m : LfuMatch} (judged : (s.filterObject env oid dor reply).verdict = .ok m)
    : (lfuFillRec oid dor (s.filterObject env oid dor reply).record
        (s.filterObject env oid dor reply).lfuBits).tagged
      = (m == .unknown) := by
  have filled := (lfuKmdtRec_fill oid dor (s.filterObject env oid dor reply).record
    (s.filterObject env oid dor reply).lfuBits).2.2.2
  have marked := (lfuFilterObject_marks env _ reply (lfuRecFromDor oid dor) s.now).2.2 m judged
  exact filled.trans marked

/-- A judged object has been counted as rejected, is kept back as undecided, or is carried. -/
theorem Books.judged (inv : Books s) (at_ : s.producer = .recAttr) {oid : UInt64}
    {dor : DtOtableRec} {result : FilterObjectResult} {m : LfuMatch}
    (verdict : result.verdict = .ok m)
    (counted : Counted m { s.st with rsSeen := s.st.rsSeen + 1 } result.st)
    (mark
      : (lfuFillRec oid dor result.record result.lfuBits).tagged = (m == .unknown))
    : Books {
        s with
        st := result.st
        producer := afterFilter s.emitUnknown oid dor result
      } := by
  have seen := inv.seen (by rw [at_]; rfl)
  have tagged := inv.tagged (by rw [at_]; rfl)
  rw [at_] at seen tagged
  obtain ⟨seen', emitted, rejected, unknown⟩ := counted
  refine ⟨emitted.trans inv.emitted, inv.head, fun _ => ?_, fun _ emitting => ?_⟩
  · cases m <;> cases mode : s.emitUnknown <;>
      simp [mode, afterFilter, verdict, Producer.inFlight] at seen rejected unknown ⊢ <;>
      grind
  · have before := tagged emitting
    have emitting : s.emitUnknown = true := emitting
    cases m <;>
      simp [emitting, afterFilter, verdict, Producer.inFlight, mark, unknown] at before ⊢ <;>
      exact before

theorem Books.step (inv : Books s) (effect : BooksEffect env s s') : Books s' := by
  cases effect with
  | kept same head pushed mode flight => exact inv.kept same head pushed mode flight
  | object at_ oid dor reply result =>
      rw [result]
      obtain ⟨emitted, counted⟩ := lfuFilterObject_counts env
        { s.toLfuRing with st := { s.st with rsSeen := s.st.rsSeen + 1 } } reply
        (lfuRecFromDor oid dor) s.now
      cases verdict : (s.filterObject env oid dor reply).verdict with
      | ok m =>
          exact inv.judged at_ verdict (counted m verdict) (filled_tagged oid dor reply verdict)
      | error rc =>
          have leaving
              : afterFilter s.emitUnknown oid dor (s.filterObject env oid dor reply)
                = .drained rc := by
            simp only [afterFilter, verdict]
          rw [leaving]
          exact ⟨emitted.trans inv.emitted, inv.head, nofun, nofun⟩
  | publish wr at_ result =>
      have seen := inv.seen (by rw [at_]; rfl)
      have tagged := inv.tagged (by rw [at_]; rfl)
      rw [at_] at seen tagged
      rw [result]
      refine ⟨by simp [inv.emitted], ?_, fun _ => ?_, fun _ emitting => ?_⟩
      · simp [inv.head, UInt64.ofNat_add]
      · simp only [seen, Producer.inFlight, List.length_cons, List.length_nil]
        grind
      · simpa [Producer.inFlight] using tagged emitting

theorem Books.run {start : Sys} {trace : List Event} (fresh : start.Fresh)
    (zeroed : start.st = {}) (run : Run (Step env params) start trace s)
    : Books s := by
  have both : DonePlace s ∧ Books s := by
    refine run.invariant (fun s => DonePlace s ∧ Books s) ?_ ?_
    · refine ⟨.run fresh (.nil : Run (Step env params) start [] start), ?_⟩
      constructor
      · rw [zeroed, fresh.head]
      · rw [fresh.head, fresh.pushed]; rfl
      · intro _
        simp [zeroed, fresh.producer, Producer.inFlight]
      · intro _ _
        simp [zeroed, fresh.producer, fresh.pushed, Producer.inFlight]
    · rintro before event after ⟨place, inv⟩ step
      exact ⟨place.step step, inv.step (step.booksEffect place)⟩
  exact both.2

/-- At the top of its loop the producer has accounted for every object it has seen: it was
rejected, kept back as undecided, or pushed; and what was pushed is what was counted.
-/
theorem producer_books_balance {start : Sys} {trace : List Event} (fresh : start.Fresh)
    (zeroed : start.st = {}) (run : Run (Step env params) start trace s)
    (top : s.producer = .top)
    : s.st.rsSeen
        = s.st.rsFiltered0 + s.st.rsFiltered1 + s.st.rsEmitted
          + (if s.emitUnknown then 0 else s.st.rsUnknown)
      ∧ s.st.rsEmitted = s.head
      ∧ s.head = UInt64.ofNat s.pushed.length
      ∧ (s.emitUnknown = true →
          UInt64.ofNat (s.pushed.countP (·.tagged)) = s.st.rsUnknown) := by
  have books := Books.run fresh zeroed run
  have seen := books.seen (by rw [top]; rfl)
  have tagged := books.tagged (by rw [top]; rfl)
  rw [top] at seen tagged
  refine ⟨?_, books.emitted, books.head, fun emitting => ?_⟩
  · simpa [Producer.inFlight] using seen
  · simpa [Producer.inFlight] using tagged emitting

/-- One object is seen and pushed, and the producer is back at the top. -/
theorem producer_books_balance_oneRecord
    : ∃ trace s, Run (Step exactNames fourSlots) {} trace s ∧ s.producer = .top
        ∧ s.pushed.length = 1
        ∧ s.st.rsSeen
          = s.st.rsFiltered0 + s.st.rsFiltered1 + s.st.rsEmitted
            + (if s.emitUnknown then 0 else s.st.rsUnknown) := by
  have run := started_run.snoc (.producer (.recObject rfl 7 default noXattrs))
  have run := run.snoc (.producer (.stallFree rfl (by decide)))
  have run := run.snoc (.producer (.fill rfl))
  have run := run.snoc (.producer (.publish rfl))
  have run := run.snoc (.producer (.wakeTestYes rfl (by decide)))
  have run := run.snoc (.producer (.wake rfl))
  have run := run.snoc (.producer (.nextOk rfl))
  exact ⟨_, _, run, rfl, rfl, (producer_books_balance sys_fresh rfl run rfl).1⟩

end LfuScan.Ring
