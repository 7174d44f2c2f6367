import LfuScan.ScanDevice.Workers

/-! What a sweep returns, and how little is handed over once a consumer wanted no more. -/

namespace LfuScan.ScanDevice

open LfuScan.Lustre LfuScan.Foundations LfuScan.Filter

variable {host : Host} {dev : ScanDev} {backend : Backend}

-----------------------------------------------------------------------------------------
-- What is returned
-----------------------------------------------------------------------------------------

/-- A chunk that can be scanned to its end. -/
def Backend.Scans (backend : Backend) (idx : Nat) : Prop :=
  ∀ rc negative, backend.ends idx ≠ .failed rc negative

/-- The chunk a worker is in. -/
def WorkerPc.current : WorkerPc → Option Nat
  | .loadEnd idx | .scan idx _ | .seen idx _ _ _ | .callFilter idx _ _ _ | .readXattrs idx _ _
  | .callCb idx _ _ => some idx
  | _ => none

/-- A chunk a worker took is scanned, or about to be, unless it is beyond the end. -/
def ScanWorker.Reached (backend : Backend) (w : ScanShared) (idx : Nat) (me : ScanWorker)
    : Prop :=
  me.CutShort w ∨ me.pc.current = some idx ∨ w.sdEnd ≤ idx ∨ backend.Scans idx

theorem ScanWorker.Reached.moves {w w' : ScanShared} {idx : Nat} {me : ScanWorker}
    (reached : me.Reached backend w idx) (moves : w.Moves w')
    : me.Reached backend w' idx :=
  reached.imp (·.moves moves) (·.imp id (·.imp moves.end_.trans id))

theorem WorkerStep.reached {w w' : ScanShared} {me me' : ScanWorker} {event : SweepEvent}
    {trace : List SweepLabel} {idx : Nat}
    (step : WorkerStep host dev backend w me event w' me') (placed : me.Placed backend w trace)
    (reached : me.Reached backend w idx)
    : me'.Reached backend w' idx := by
  have moves := step.moves
  rcases reached with cut | current | beyond | scans
  · exact .inl (step.cutShort placed cut)
  · cases step with
    | halted at_ stop => exact .inl (.inl stop)
    | refused at_ by_ answer | handedLast at_ rc stop | broke at_ ends =>
        exact .inl (.inr (.inr trivial))
    | within at_ inside | skip at_ | see at_ | unfiltered at_ going none
    | filtered at_ going some | dropped at_ by_ answer | passed at_ by_ answer | unreadable at_
    | keptBack at_ sinks | found at_ sinks | handed at_ =>
        rw [at_] at current
        exact .inr (.inl current)
    | beyond at_ past =>
        rw [at_] at current
        exact .inr (.inr (.inl (Option.some.inj current ▸ past)))
    | more at_ ends | done at_ ends =>
        rw [at_] at current
        refine .inr (.inr (.inr fun rc negative fails => ?_))
        rw [← Option.some.inj current, ends] at fails
        cases fails
    | _ at_ => simp only [at_, WorkerPc.current, reduceCtorEq] at current
  · exact .inr (.inr (.inl (moves.end_.trans beyond)))
  · exact .inr (.inr (.inr scans))

/-- The end is where the target was said to end, or right after a chunk that said so. -/
def ScanShared.Ended (dev : ScanDev) (backend : Backend) (w : ScanShared) : Prop :=
  w.sdEnd = dev.sdTgtInfo.ttChunks ∨ ∃ idx, w.sdEnd = idx + 1 ∧ backend.ends idx = .done

theorem WorkerStep.ended {w w' : ScanShared} {me me' : ScanWorker} {event : SweepEvent}
    {trace : List SweepLabel} (step : WorkerStep host dev backend w me event w' me')
    (placed : me.Placed backend w trace) (ended : w.Ended dev backend)
    : w'.Ended dev backend := by
  unfold ScanWorker.Placed at placed
  cases step with
  | swapped at_ above same =>
      rw [at_] at placed
      exact .inr ⟨_, rfl, placed.2.1⟩
  | _ => exact ended

/-- A consumer who wanted no more has been heard, or is about to be. -/
def Sweep.Heeds (s : Sweep) (trace : List SweepLabel) : Prop :=
  ∀ rc, Answered trace rc → s.w.sdStopRc ≠ 0 ∨ ∃ i value, (s.workers i).pc = .setStop value

/-- An answer that stops the sweep leads the worker there. -/
theorem WorkerStep.answered {w w' : ScanShared} {me me' : ScanWorker} {event : SweepEvent}
    {trace : List SweepLabel} {i : Nat} {rc : Int}
    (step : WorkerStep host dev backend w me event w' me')
    (answered : Answered (trace ++ [.worker i event]) rc)
    : Answered trace rc ∨ ∃ value, me'.pc = .setStop value := by
  obtain ⟨j, record, ⟨answer, member⟩ | ⟨answer, member⟩⟩ := answered
  · rcases List.mem_append.mp member with before | last
    · exact .inl ⟨j, record, .inl ⟨answer, before⟩⟩
    · obtain ⟨rfl, rfl⟩ := SweepLabel.worker.inj (List.mem_singleton.mp last)
      cases step with
      | dropped at_ by_ drops => exact absurd answer (Int.not_lt.mpr (Int.le_of_lt drops))
      | refused at_ by_ refuses => exact .inr ⟨_, rfl⟩
      | passed at_ by_ passes => exact absurd answer (Int.lt_irrefl 0)
  · rcases List.mem_append.mp member with before | last
    · exact .inl ⟨j, record, .inr ⟨answer, before⟩⟩
    · obtain ⟨rfl, rfl⟩ := SweepLabel.worker.inj (List.mem_singleton.mp last)
      cases step with
      | handed at_ => exact absurd rfl answer
      | handedLast at_ rc stop => exact .inr ⟨_, rfl⟩

/-- A worker about to stop the sweep stops it. -/
theorem WorkerStep.heard {w w' : ScanShared} {me me' : ScanWorker} {event : SweepEvent}
    {trace : List SweepLabel} {value : Int}
    (step : WorkerStep host dev backend w me event w' me') (placed : me.Placed backend w trace)
    (about : me.pc = .setStop value)
    : w'.sdStopRc ≠ 0 := by
  unfold ScanWorker.Placed at placed
  rw [about] at placed
  cases step with
  | setStop at_ =>
      rw [about] at at_
      exact swapZero_ne (WorkerPc.setStop.inj at_ ▸ placed.ne_zero)
  | _ at_ =>
      rw [about] at at_
      cases at_

section Result

variable {nworkers : Nat} {stats : LlapiScanStats} {trace : List SweepLabel} {s s' : Sweep}

theorem Sweep.Heeds.workerStep (heeds : s.Heeds trace) {i : Nat} {event : SweepEvent}
    {w : ScanShared} {me : ScanWorker}
    (step : WorkerStep host dev backend s.w (s.workers i) event w me)
    (placed : (s.workers i).Placed backend s.w trace)
    : Sweep.Heeds { s with w, workers := Function.update s.workers i me }
        (trace ++ [.worker i event]) := by
  intro rc answered
  rcases step.answered answered with before | ⟨value, about⟩
  · rcases heeds rc before with stop | ⟨j, value, about⟩
    · exact .inl (step.moves.stop_ne stop)
    · by_cases same : j = i
      · subst same
        exact .inl (step.heard placed about)
      · refine .inr ⟨j, value, ?_⟩
        dsimp only
        rwa [Function.update_of_ne same]
  · refine .inr ⟨i, value, ?_⟩
    dsimp only
    rwa [Function.update_self]

/-- A step of the sweep itself. -/
theorem Sweep.Heeds.main (heeds : s.Heeds trace) {workers : Nat → ScanWorker} {main : SweepPc}
    (kept : ∀ i value, (s.workers i).pc = .setStop value → (workers i).pc = .setStop value)
    : Sweep.Heeds { s with workers, main } (trace ++ [.main]) := by
  intro rc answered
  have before : Answered trace rc := by
    obtain ⟨j, record, ⟨answer, member⟩ | ⟨answer, member⟩⟩ := answered
    · exact ⟨j, record, .inl ⟨answer, by simpa using member⟩⟩
    · exact ⟨j, record, .inr ⟨answer, by simpa using member⟩⟩
  rcases heeds rc before with stop | ⟨j, value, about⟩
  · exact .inl stop
  · exact .inr ⟨j, value, kept j value about⟩

theorem Sweep.launch_kept {i : Nat} (idle : (s.workers i).pc = .idle) (j : Nat) (value : Int)
    (about : (s.workers j).pc = .setStop value)
    : (s.launch i j).pc = .setStop value := by
  by_cases same : j = i
  · subst same
    rw [idle] at about
    cases about
  · rwa [Sweep.launch, Function.update_of_ne same]

/-- What the value a sweep returns rests on. -/
structure Returning (host : Host) (dev : ScanDev) (backend : Backend) (nworkers : Nat)
    (stats : LlapiScanStats) (trace : List SweepLabel) (s : Sweep)
    : Prop where
  sweeping : Sweeping host dev backend nworkers stats trace s
  ended : s.w.Ended dev backend
  heeds : s.Heeds trace
  reached : ∀ i, ∀ idx ∈ takenBy i trace, (s.workers i).Reached backend s.w idx

theorem Returning.begin {bufs : Nat → ScanBuf} (some : 0 < nworkers)
    (sized : ∀ i, (bufs i).Sized host)
    : Returning host dev backend nworkers stats [] (.begin dev bufs) where
  sweeping := .begin some sized
  ended := .inl rfl
  heeds _ answered := by
    obtain ⟨_, _, ⟨_, member⟩ | ⟨_, member⟩⟩ := answered <;> cases member
  reached _ _ member := absurd member List.not_mem_nil

theorem Returning.launched (inv : Returning host dev backend nworkers stats trace s) {i : Nat}
    (idle : (s.workers i).pc = .idle) (j : Nat)
    : ∀ idx ∈ takenBy j (trace ++ [.main]), (s.launch i j).Reached backend s.w idx := by
  rw [takenBy_main]
  refine (Function.forall_update_iff s.workers fun j worker =>
      ∀ idx ∈ takenBy j trace, ScanWorker.Reached backend s.w idx worker).mpr
    ⟨fun idx member => ?_, fun j _ => inv.reached j⟩ j
  rw [((inv.sweeping.workers i).fresh idle).1] at member
  cases member

theorem Returning.step (inv : Returning host dev backend nworkers stats trace s)
    {label : SweepLabel} (step : SweepStep host dev backend nworkers stats s label s')
    : Returning host dev backend nworkers stats (trace ++ [label]) s' := by
  have sweeping := inv.sweeping.step step
  have staffed := inv.sweeping.staffed
  cases step with
  | @worker i event w me step =>
      have placed := (inv.sweeping.workers i).placed
      refine ⟨sweeping, step.ended placed inv.ended, inv.heeds.workerStep step placed,
        (Function.forall_update_iff s.workers fun j worker =>
          ∀ idx ∈ takenBy j (trace ++ [.worker i event]),
            ScanWorker.Reached backend w idx worker).mpr ⟨fun idx member => ?_,
            fun j other idx member => ?_⟩⟩
      · rw [takenBy_self] at member
        rcases List.mem_append.mp member with before | last
        · exact step.reached placed (inv.reached i idx before)
        · cases step with
          | take at_ =>
              rw [List.mem_singleton.mp last]
              exact .inr (.inl rfl)
          | _ => cases last
      · rw [takenBy_other trace i event other] at member
        exact (inv.reached j idx member).moves step.moves
  | create at_ more =>
      have idle := (staffed.next_idle at_).2
      exact ⟨sweeping, inv.ended, inv.heeds.main (Sweep.launch_kept idle), inv.launched idle⟩
  | created at_ =>
      have idle := (staffed.next_idle at_).1
      exact ⟨sweeping, inv.ended, inv.heeds.main (Sweep.launch_kept idle), inv.launched idle⟩
  | join at_ finished =>
      refine ⟨sweeping, inv.ended, inv.heeds.main fun _ _ about => about, fun i => ?_⟩
      rw [takenBy_main]
      exact inv.reached i

theorem Returning.run (some : 0 < nworkers) {bufs : Nat → ScanBuf}
    (sized : ∀ i, (bufs i).Sized host)
    (run : Run (SweepStep host dev backend nworkers stats) (.begin dev bufs) trace s)
    : Returning host dev backend nworkers stats trace s :=
  run.traceInvariant (Returning host dev backend nworkers stats) (.begin some sized)
    (fun _ _ _ _ inv step => inv.step step)

/-- A sweep that returns zero has scanned every chunk before a reported end. -/
theorem Returning.scanned (inv : Returning host dev backend nworkers stats trace s)
    {out : LlapiScanStats} (returned : s.main = .returned 0 out) {idx : Nat}
    (below : idx < dev.sdTgtInfo.ttChunks)
    : (∃ last < idx, backend.ends last = .done) ∨ backend.Scans idx := by
  have staffed := inv.sweeping.staffed
  unfold Sweep.Staffed at staffed
  rw [returned] at staffed
  obtain ⟨caller, finished, _, result, _⟩ := staffed
  obtain ⟨stop, error⟩ := ScanShared.result_zero result.symm
  rcases Nat.lt_or_ge idx s.w.sdEnd with before | beyond
  · have drained := inv.sweeping.drained caller stop error
    obtain ⟨i, took⟩ := inv.sweeping.covered idx (Nat.lt_of_lt_of_le before drained)
    rcases inv.reached i idx took with cut | current | beyond | scans
    · exact absurd cut (ScanWorker.not_cutShort (finished i) stop error)
    · rcases finished i with at_ | at_ <;> rw [at_] at current <;> cases current
    · exact absurd before (Nat.not_lt.mpr beyond)
    · exact .inr scans
  · rcases inv.ended with whole | ⟨last, ends, done⟩
    · exact absurd below (Nat.not_lt.mpr (whole ▸ beyond))
    · exact .inl ⟨last, by omega, done⟩

/-- Zero says that no consumer wanted to stop and that every chunk before the last was scanned.
Any other value is an answer of a consumer that stopped the sweep, if there was one, and else
the error of a chunk.
-/
theorem sweep_result (some : 0 < nworkers) {bufs : Nat → ScanBuf}
    (sized : ∀ i, (bufs i).Sized host)
    (run : Run (SweepStep host dev backend nworkers stats) (.begin dev bufs) trace s)
    {rc : Int} {out : LlapiScanStats} (returned : s.main = .returned rc out)
    : (rc = 0 →
        (∀ value, ¬ Answered trace value)
        ∧ ∀ idx < dev.sdTgtInfo.ttChunks,
            (∃ last < idx, backend.ends last = .done) ∨ backend.Scans idx)
      ∧ (rc ≠ 0 →
          Answered trace rc
          ∨ (∀ value, ¬ Answered trace value) ∧ Broken backend s.w rc) := by
  have inv := Returning.run some sized run
  have staffed := inv.sweeping.staffed
  unfold Sweep.Staffed at staffed
  rw [returned] at staffed
  obtain ⟨_, finished, _, result, _⟩ := staffed
  -- nobody is about to stop the sweep any more
  have heard (value : Int) (answered : Answered trace value) : s.w.sdStopRc ≠ 0 := by
    rcases inv.heeds value answered with stop | ⟨i, _, about⟩
    · exact stop
    · rcases finished i with at_ | at_ <;> rw [at_] at about <;> cases about
  constructor
  · intro zero
    obtain ⟨stop, _⟩ := ScanShared.result_zero (result.symm.trans zero)
    subst zero
    exact ⟨fun value answered => heard value answered stop, fun _ => inv.scanned returned⟩
  · intro some
    by_cases stop : s.w.sdStopRc = 0
    · refine .inr ⟨fun value answered => heard value answered stop, ?_⟩
      have value : rc = s.w.sdError := by
        rw [result, ScanShared.result, if_neg (not_not.mpr stop)]
      rw [value] at some ⊢
      exact inv.sweeping.caused.error some
    · have value : rc = s.w.sdStopRc := by rw [result, ScanShared.result, if_pos stop]
      rw [value]
      exact .inl (inv.sweeping.caused.stop stop)

theorem sweep_result_twoWorkers
    : ∃ trace s out,
        Run (SweepStep oneHost namingDev twoObjects 2 0)
          (.begin namingDev fun _ => .cleared oneHost) trace s
        ∧ s.main = .returned 0 out
        ∧ ∀ value, ¬ Answered trace value := by
  obtain ⟨trace, s, out, run, returned, _⟩ := twoObjects_sweep
  exact ⟨trace, s, out, run, returned, ((sweep_result Nat.two_pos
    (fun _ => ScanBuf.cleared_sized oneHost) run returned).1 rfl).1⟩

end Result

-----------------------------------------------------------------------------------------
-- After a stop
-----------------------------------------------------------------------------------------

/-- Past the last look at `sd_stop_rc` on the way to the consumer. -/
def WorkerPc.inFlight : WorkerPc → Nat
  | .callFilter _ _ _ _ | .readXattrs _ _ _ | .callCb _ _ _ => 1
  | _ => 0

/-- Past the last look at `sd_stop_rc` on the way to a chunk. -/
def WorkerPc.fetching : WorkerPc → Nat
  | .loadError | .fetchChunk => 1
  | _ => 0

/-- Once the sweep is stopped nobody gets on the way any more. -/
theorem WorkerStep.winds_down {w w' : ScanShared} {me me' : ScanWorker} {event : SweepEvent}
    (step : WorkerStep host dev backend w me event w' me') (stop : w.sdStopRc ≠ 0)
    : event.record.toList.length + me'.pc.inFlight ≤ me.pc.inFlight
      ∧ event.chunk.toList.length + me'.pc.fetching ≤ me.pc.fetching := by
  cases step with
  | notStopped at_ going | unfiltered at_ going none | filtered at_ going some
  | unrecorded at_ going => exact absurd going stop
  | _ at_ =>
      simp [at_, WorkerPc.inFlight, WorkerPc.fetching, SweepEvent.record, SweepEvent.chunk]

/-- What a worker still did since the sweep was stopped, with what it is about to do. -/
structure WindingDown (start : Sweep) (trace : List SweepLabel) (s : Sweep) : Prop where
  stop : s.w.sdStopRc = start.w.sdStopRc
  handed
    : ∀ i,
        (handedBy i trace).length + (s.workers i).pc.inFlight ≤ (start.workers i).pc.inFlight
  taken
    : ∀ i,
        (takenBy i trace).length + (s.workers i).pc.fetching ≤ (start.workers i).pc.fetching

section Stopped

variable {nworkers : Nat} {stats : LlapiScanStats} {trace : List SweepLabel}
    {start s s' : Sweep}

theorem Sweep.launch_calm (s : Sweep) (i j : Nat)
    : (s.launch i j).pc.inFlight ≤ (s.workers j).pc.inFlight
      ∧ (s.launch i j).pc.fetching ≤ (s.workers j).pc.fetching := by
  by_cases same : j = i
  · subst same
    rw [Sweep.launch, Function.update_self]
    exact ⟨Nat.zero_le _, Nat.zero_le _⟩
  · rw [Sweep.launch, Function.update_of_ne same]
    exact ⟨Nat.le_refl _, Nat.le_refl _⟩

theorem WindingDown.launch (inv : WindingDown start trace s) (i : Nat) {main : SweepPc}
    : WindingDown start (trace ++ [.main]) { s with workers := s.launch i, main } where
  stop := inv.stop
  handed j := by
    rw [handedBy_main]
    exact (Nat.add_le_add_left (s.launch_calm i j).1 _).trans (inv.handed j)
  taken j := by
    rw [takenBy_main]
    exact (Nat.add_le_add_left (s.launch_calm i j).2 _).trans (inv.taken j)

theorem WindingDown.step (inv : WindingDown start trace s) (stop : start.w.sdStopRc ≠ 0)
    {label : SweepLabel} (step : SweepStep host dev backend nworkers stats s label s')
    : WindingDown start (trace ++ [label]) s' := by
  have stopped : s.w.sdStopRc ≠ 0 := by rwa [inv.stop]
  cases step with
  | create at_ more => exact inv.launch _
  | created at_ => exact inv.launch _
  | join at_ finished =>
      refine ⟨inv.stop, fun i => ?_, fun i => ?_⟩
      · rw [handedBy_main]
        exact inv.handed i
      · rw [takenBy_main]
        exact inv.taken i
  | @worker i event w me step =>
      obtain ⟨hands, takes⟩ := step.winds_down stopped
      refine ⟨(step.moves.stop stopped).trans inv.stop, fun j => ?_, fun j => ?_⟩
      · have handed := inv.handed j
        dsimp only
        by_cases same : j = i
        · subst same
          rw [handedBy_self, List.length_append, Function.update_self]
          omega
        · rwa [handedBy_other trace i event same, Function.update_of_ne same]
      · have taken := inv.taken j
        dsimp only
        by_cases same : j = i
        · subst same
          rw [takenBy_self, List.length_append, Function.update_self]
          omega
        · rwa [takenBy_other trace i event same, Function.update_of_ne same]

/-- Once a sweep is stopped its value stays. A worker hands over one record more if it was on
the way with it, and takes one chunk more if it was on the way there, and nothing else.
-/
theorem sweep_stops (stop : s.w.sdStopRc ≠ 0)
    (run : Run (SweepStep host dev backend nworkers stats) s trace s')
    : s'.w.sdStopRc = s.w.sdStopRc
      ∧ ∀ i,
          (handedBy i trace).length ≤ (s.workers i).pc.inFlight
          ∧ (takenBy i trace).length ≤ (s.workers i).pc.fetching := by
  have start : WindingDown s [] s :=
    ⟨rfl, fun _ => Nat.le_of_eq (Nat.zero_add _), fun _ => Nat.le_of_eq (Nat.zero_add _)⟩
  have inv := run.traceInvariant (WindingDown s) start
    (fun _ _ _ _ inv step => inv.step stop step)
  exact ⟨inv.stop, fun i =>
    ⟨Nat.le_of_add_right_le (inv.handed i), Nat.le_of_add_right_le (inv.taken i)⟩⟩

/-- The consumer answers 5 to the first worker while the second is on the way with a record: the
second hands it over, and that is all.
-/
theorem sweep_stops_inFlight
    : ∃ before trace s s',
        Run (SweepStep oneHost namingDev twoObjects 2 0)
          (.begin namingDev fun _ => .cleared oneHost) before s
        ∧ Run (SweepStep oneHost namingDev twoObjects 2 0) s trace s'
        ∧ s.w.sdStopRc = 5
        ∧ s'.w.sdStopRc = 5
        ∧ (handedBy 1 trace).length = 1
        ∧ (handedBy 0 trace).length ≤ 0 := by
  obtain ⟨before, file, dir, stats, stats', buf, buf', found, _⟩ := twoObjects_found
  generalize mid : crew { sdCursor := 2, sdEnd := 3, sdStopRc := 5 }
    [
      { pc := .failed (-1), swStats := stats, swBuf := buf },
      { pc := .callCb 1 dir [], swStats := stats', swBuf := buf' }
    ]
    (.run 2) = s
  have stopped : Run (SweepStep oneHost namingDev twoObjects 2 0)
      (.begin namingDev fun _ => .cleared oneHost) _ s :=
    mid ▸ (found.snoc (crew_first (.handedLast rfl 5 (by decide)))).snoc
      (crew_first (.setStop rfl))
  have later : Run (SweepStep oneHost namingDev twoObjects 2 0) s _ _ :=
    mid ▸ ((Run.nil.snoc (crew_second (.handed rfl))).snoc
      (crew_second (.done rfl rfl))).snoc (crew_first (.recorded rfl (by decide)))
  have value : s.w.sdStopRc = 5 := by
    rw [← mid]
    rfl
  have stops := sweep_stops (by rw [value]; decide) later
  have settled : (s.workers 0).pc.inFlight = 0 := by
    rw [← mid]
    rfl
  exact ⟨_, _, s, _, stopped, later, value, stops.1.trans value, rfl,
    (stops.2 0).1.trans_eq settled⟩

end Stopped

end LfuScan.ScanDevice
