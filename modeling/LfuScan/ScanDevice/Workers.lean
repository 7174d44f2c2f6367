import LfuScan.ScanDevice.Sweep
import LfuScan.Foundations.Dispatch
import Mathlib.Tactic.Abel

/-! What holds all through a sweep, whatever the backend does: who runs, who took which chunk,
and where the value the sweep returns came from.
-/

namespace LfuScan.ScanDevice

open LfuScan.Lustre LfuScan.Foundations LfuScan.Filter

variable {host : Host} {dev : ScanDev} {backend : Backend}

-----------------------------------------------------------------------------------------
-- One worker
-----------------------------------------------------------------------------------------

/-- A chunk that was handed out could not be scanned. -/
def Broken (backend : Backend) (w : ScanShared) (rc : Int) : Prop :=
  ∃ idx < w.sdCursor, ∃ negative, backend.ends idx = .failed rc negative

/-- What is known at each point of `scan_worker_run`. -/
def ScanWorker.Placed (backend : Backend) (w : ScanShared) (trace : List SweepLabel)
    (me : ScanWorker)
    : Prop :=
  match me.pc with
  | .idle => me.swStats = 0
  | .loadEnd idx | .scan idx _ | .seen idx _ _ _ | .callFilter idx _ _ _ | .readXattrs idx _ _
  | .callCb idx _ _ => idx < w.sdCursor
  | .setStop rc => Answered trace rc
  | .failed rc => w.sdStopRc ≠ 0 ∨ Broken backend w rc
  | .setError rc => Broken backend w rc
  | .lowerEnd idx => idx < w.sdCursor ∧ backend.ends idx = .done
  | .swapEnd idx seen => idx < w.sdCursor ∧ backend.ends idx = .done ∧ w.sdEnd ≤ seen
  | .returned => w.sdStopRc ≠ 0 ∨ w.sdError ≠ 0 ∨ w.sdEnd ≤ w.sdCursor
  | .loadStop | .loadError | .fetchChunk => True

/-- What the workers share only moves one way. -/
structure ScanShared.Moves (w w' : ScanShared) : Prop where
  cursor : w.sdCursor ≤ w'.sdCursor
  end_ : w'.sdEnd ≤ w.sdEnd
  stop : w.sdStopRc ≠ 0 → w'.sdStopRc = w.sdStopRc
  error : w.sdError ≠ 0 → w'.sdError = w.sdError

theorem ScanShared.Moves.refl {w : ScanShared} : w.Moves w :=
  ⟨Nat.le_refl _, Nat.le_refl _, fun _ => rfl, fun _ => rfl⟩

theorem swapZero_kept {value : Int} (set : value ≠ 0) (new : Int) : swapZero value new = value :=
  if_neg set

theorem swapZero_ne {value new : Int} (some : new ≠ 0) : swapZero value new ≠ 0 := by
  unfold swapZero
  split
  · exact some
  · assumption

theorem WorkerStep.moves {w w' : ScanShared} {me me' : ScanWorker} {event : SweepEvent}
    (step : WorkerStep host dev backend w me event w' me')
    : w.Moves w' := by
  cases step with
  | take at_ => exact ⟨Nat.le_succ _, Nat.le_refl _, fun _ => rfl, fun _ => rfl⟩
  | setStop at_ =>
      exact ⟨Nat.le_refl _, Nat.le_refl _, fun set => swapZero_kept set _, fun _ => rfl⟩
  | setError at_ =>
      exact ⟨Nat.le_refl _, Nat.le_refl _, fun _ => rfl, fun set => swapZero_kept set _⟩
  | swapped at_ above same =>
      refine ⟨Nat.le_refl _, ?_, fun _ => rfl, fun _ => rfl⟩
      dsimp only
      omega
  | _ => exact .refl

theorem Broken.moves {w w' : ScanShared} {rc : Int} (broken : Broken backend w rc)
    (moves : w.Moves w')
    : Broken backend w' rc := by
  obtain ⟨idx, out, fails⟩ := broken
  exact ⟨idx, Nat.lt_of_lt_of_le out moves.cursor, fails⟩

theorem Broken.ne_zero {w : ScanShared} {rc : Int} (broken : Broken backend w rc) : rc ≠ 0 := by
  obtain ⟨_, _, negative, _⟩ := broken
  omega

theorem Answered.later {trace : List SweepLabel} {rc : Int} (answered : Answered trace rc)
    (label : SweepLabel)
    : Answered (trace ++ [label]) rc := by
  obtain ⟨i, record, ⟨answer, filter⟩ | ⟨answer, handed⟩⟩ := answered
  · exact ⟨i, record, .inl ⟨answer, List.mem_append_left _ filter⟩⟩
  · exact ⟨i, record, .inr ⟨answer, List.mem_append_left _ handed⟩⟩

theorem Answered.ne_zero {trace : List SweepLabel} {rc : Int} (answered : Answered trace rc)
    : rc ≠ 0 := by
  obtain ⟨_, _, ⟨answer, _⟩ | ⟨answer, _⟩⟩ := answered
  · exact Int.ne_of_lt answer
  · exact answer

theorem ScanShared.Moves.stop_ne {w w' : ScanShared} (moves : w.Moves w')
    (stop : w.sdStopRc ≠ 0)
    : w'.sdStopRc ≠ 0 := by
  rwa [moves.stop stop]

theorem ScanShared.Moves.error_ne {w w' : ScanShared} (moves : w.Moves w')
    (error : w.sdError ≠ 0)
    : w'.sdError ≠ 0 := by
  rwa [moves.error error]

/-- What a worker knows stays so while the others move. -/
theorem ScanWorker.Placed.moves {w w' : ScanShared} {trace : List SweepLabel} {me : ScanWorker}
    (placed : me.Placed backend w trace) (moves : w.Moves w') (label : SweepLabel)
    : me.Placed backend w' (trace ++ [label]) := by
  have cursor := moves.cursor
  have end_ := moves.end_
  unfold ScanWorker.Placed at placed ⊢
  cases pc : me.pc with
  | idle => simpa only [pc] using placed
  | loadStop | loadError | fetchChunk => trivial
  | loadEnd idx | scan idx rest | seen idx bare full rest | callFilter idx bare full rest
  | readXattrs idx full rest | callCb idx record rest =>
      rw [pc] at placed
      exact Nat.lt_of_lt_of_le placed cursor
  | setStop rc =>
      rw [pc] at placed
      exact placed.later label
  | failed rc =>
      rw [pc] at placed
      exact placed.imp moves.stop_ne (·.moves moves)
  | setError rc =>
      rw [pc] at placed
      exact Broken.moves placed moves
  | lowerEnd idx =>
      rw [pc] at placed
      exact ⟨Nat.lt_of_lt_of_le placed.1 cursor, placed.2⟩
  | swapEnd idx seen =>
      rw [pc] at placed
      exact ⟨Nat.lt_of_lt_of_le placed.1 cursor, placed.2.1, end_.trans placed.2.2⟩
  | returned =>
      rw [pc] at placed
      exact placed.imp moves.stop_ne (·.imp moves.error_ne fun finished => by omega)

/-- Each step leaves a worker where it should be. -/
theorem WorkerStep.placed {w w' : ScanShared} {me me' : ScanWorker} {event : SweepEvent}
    {trace : List SweepLabel} (step : WorkerStep host dev backend w me event w' me') (i : Nat)
    (placed : me.Placed backend w trace)
    : me'.Placed backend w' (trace ++ [.worker i event]) := by
  have last : SweepLabel.worker i event ∈ trace ++ [.worker i event] := by simp
  unfold ScanWorker.Placed at placed
  cases step with
  | stopped at_ stop => exact .inl stop
  | errored at_ error => exact .inr (.inl error)
  | notStopped at_ going | notErrored at_ going | more at_ ends => trivial
  | take at_ => exact Nat.lt_succ_self _
  | beyond at_ past =>
      rw [at_] at placed
      exact .inr (.inr (past.trans (Nat.le_of_lt placed)))
  | within at_ inside | skip at_ | see at_ | unfiltered at_ going none | filtered at_ going some
  | dropped at_ by_ answer | passed at_ by_ answer | unreadable at_ | keptBack at_ sinks
  | found at_ sinks | handed at_ =>
      rw [at_] at placed
      exact placed
  | halted at_ stop => exact .inl stop
  | refused at_ by_ answer => exact ⟨i, _, .inl ⟨answer, last⟩⟩
  | handedLast at_ rc stop => exact ⟨i, _, .inr ⟨stop, last⟩⟩
  | setStop at_ =>
      rw [at_] at placed
      exact .inl (swapZero_ne placed.ne_zero)
  | done at_ ends =>
      rw [at_] at placed
      exact ⟨placed, ends⟩
  | broke at_ ends =>
      rw [at_] at placed
      exact .inr ⟨_, placed, _, ends⟩
  | recorded at_ stop => exact .inl stop
  | unrecorded at_ going =>
      rw [at_] at placed
      exact placed.resolve_left (absurd going)
  | setError at_ =>
      rw [at_] at placed
      exact .inr (.inl (swapZero_ne placed.ne_zero))
  | lower at_ =>
      rw [at_] at placed
      exact ⟨placed.1, placed.2, Nat.le_refl _⟩
  | low at_ enough =>
      rw [at_] at placed
      exact .inr (.inr (placed.2.2.trans (enough.trans placed.1)))
  | swapped at_ above same =>
      rw [at_] at placed
      exact .inr (.inr placed.1)
  | overtaken at_ above moved =>
      rw [at_] at placed
      exact ⟨placed.1, placed.2.1, Nat.le_refl _⟩

/-- The value of a stop is a consumer's, and an error a chunk's. -/
structure ScanShared.Caused (backend : Backend) (trace : List SweepLabel) (w : ScanShared)
    : Prop where
  stop : w.sdStopRc ≠ 0 → Answered trace w.sdStopRc
  error : w.sdError ≠ 0 → Broken backend w w.sdError

theorem WorkerStep.caused {w w' : ScanShared} {me me' : ScanWorker} {event : SweepEvent}
    {trace : List SweepLabel} (step : WorkerStep host dev backend w me event w' me') (i : Nat)
    (placed : me.Placed backend w trace) (caused : w.Caused backend trace)
    : w'.Caused backend (trace ++ [.worker i event]) := by
  have moves := step.moves
  unfold ScanWorker.Placed at placed
  have stop (same : w'.sdStopRc = w.sdStopRc) (set : w'.sdStopRc ≠ 0)
      : Answered (trace ++ [.worker i event]) w'.sdStopRc := by
    rw [same] at set ⊢
    exact (caused.stop set).later _
  have error (same : w'.sdError = w.sdError) (set : w'.sdError ≠ 0)
      : Broken backend w' w'.sdError := by
    rw [same] at set ⊢
    exact (caused.error set).moves moves
  cases step with
  | setStop at_ =>
      refine ⟨fun _ => ?_, error rfl⟩
      rw [at_] at placed
      dsimp only [swapZero]
      split
      · exact placed.later _
      · rename_i set
        exact (caused.stop set).later _
  | setError at_ =>
      refine ⟨stop rfl, fun _ => ?_⟩
      rw [at_] at placed
      dsimp only [swapZero]
      split
      · exact placed
      · rename_i set
        exact caused.error set
  | _ => exact ⟨stop rfl, error rfl⟩

theorem ScanShared.Caused.main {w : ScanShared} {trace : List SweepLabel}
    (caused : w.Caused backend trace)
    : w.Caused backend (trace ++ [.main]) :=
  { caused with stop := fun set => (caused.stop set).later _ }

/-- A worker whose chunk was cut short, or is about to be known for it. -/
def ScanWorker.CutShort (w : ScanShared) (me : ScanWorker) : Prop :=
  w.sdStopRc ≠ 0 ∨ w.sdError ≠ 0
    ∨ match me.pc with
      | .setStop _ | .failed _ | .setError _ => True
      | _ => False

/-- A chunk cut short stays so. -/
theorem WorkerStep.cutShort {w w' : ScanShared} {me me' : ScanWorker} {event : SweepEvent}
    {trace : List SweepLabel} (step : WorkerStep host dev backend w me event w' me')
    (placed : me.Placed backend w trace) (cut : me.CutShort w)
    : me'.CutShort w' := by
  have moves := step.moves
  rcases cut with stop | error | pc
  · exact .inl (moves.stop_ne stop)
  · exact .inr (.inl (moves.error_ne error))
  · unfold ScanWorker.Placed at placed
    cases step with
    | setStop at_ => exact .inr (.inr trivial)
    | recorded at_ stop => exact .inl stop
    | unrecorded at_ going => exact .inr (.inr trivial)
    | setError at_ =>
        rw [at_] at placed
        exact .inr (.inl (swapZero_ne placed.ne_zero))
    | _ at_ => simp only [at_] at pc

theorem ScanWorker.CutShort.moves {w w' : ScanShared} {me : ScanWorker} (cut : me.CutShort w)
    (moves : w.Moves w')
    : me.CutShort w' :=
  cut.imp moves.stop_ne (·.imp moves.error_ne id)

theorem ScanWorker.not_cutShort {w : ScanShared} {me : ScanWorker}
    (finished : me.pc = .idle ∨ me.pc = .returned) (stop : w.sdStopRc = 0) (error : w.sdError = 0)
    : ¬ me.CutShort w := by
  rintro (stopped | failed | cut)
  · exact stopped stop
  · exact failed error
  · rcases finished with at_ | at_ <;> simp only [at_] at cut

/-- Only a worker that runs makes steps. -/
theorem WorkerStep.live {w w' : ScanShared} {me me' : ScanWorker} {event : SweepEvent}
    (step : WorkerStep host dev backend w me event w' me')
    : me.pc ≠ .idle ∧ me.pc ≠ .returned ∧ me'.pc ≠ .idle := by
  cases step <;> simp_all

/-- The filter is called only where there is one. -/
theorem WorkerStep.filters {w w' : ScanShared} {me me' : ScanWorker} {event : SweepEvent}
    {idx : Nat} {bare : LlapiScanObj} {full : Option LlapiScanObj} {rest : List Item}
    (step : WorkerStep host dev backend w me event w' me')
    (calls : me'.pc = .callFilter idx bare full rest)
    : dev.sdFilter.isSome := by
  cases step with
  | filtered at_ going some => exact some
  | _ => cases calls

theorem WorkerStep.sized {w w' : ScanShared} {me me' : ScanWorker} {event : SweepEvent}
    (step : WorkerStep host dev backend w me event w' me') (sized : me.swBuf.Sized host)
    : me'.swBuf.Sized host := by
  have left {obj : LlapiScanObj} {buf : ScanBuf} {sunk : ScanClass × Option LlapiScanRec}
      (sinks : sinkRecord host dev me.swBuf obj = some (buf, sunk))
      : buf.Sized host := by
    obtain ⟨kept, same, small⟩ := sinkRecord_objectSink sized dev obj
    rw [sinks] at same
    rwa [(Prod.mk.inj (Option.some.inj same)).1]
  cases step with
  | keptBack at_ sinks => exact left sinks
  | found at_ sinks => exact left sinks
  | _ => exact sized

section Traces

variable (trace : List SweepLabel) (i : Nat) (event : SweepEvent)

theorem takenBy_self
    : takenBy i (trace ++ [.worker i event]) = takenBy i trace ++ event.chunk.toList := by
  cases chunk : event.chunk <;> simp [takenBy, chunk]

theorem takenBy_other {j : Nat} (other : j ≠ i)
    : takenBy j (trace ++ [.worker i event]) = takenBy j trace := by
  simp [takenBy, Ne.symm other]

theorem takenBy_main : takenBy i (trace ++ [.main]) = takenBy i trace := by
  simp [takenBy]

theorem handedBy_self
    : handedBy i (trace ++ [.worker i event]) = handedBy i trace ++ event.record.toList := by
  cases record : event.record <;> simp [handedBy, record]

theorem handedBy_other {j : Nat} (other : j ≠ i)
    : handedBy j (trace ++ [.worker i event]) = handedBy j trace := by
  simp [handedBy, Ne.symm other]

theorem handedBy_main : handedBy i (trace ++ [.main]) = handedBy i trace := by
  simp [handedBy]

theorem handedOver_worker
    : handedOver (trace ++ [.worker i event]) = handedOver trace ++ event.record.toList := by
  cases record : event.record <;> simp [handedOver, record]

theorem handedOver_main : handedOver (trace ++ [.main]) = handedOver trace := by
  simp [handedOver]

end Traces

-----------------------------------------------------------------------------------------
-- Who runs
-----------------------------------------------------------------------------------------

/-- How many workers there are to start or wait for, and what they have been through. -/
def Sweep.Staffed (nworkers : Nat) (stats : LlapiScanStats) (s : Sweep) : Prop :=
  match s.main with
  | .create i => (1 ≤ i ∧ i ≤ nworkers) ∧ ∀ j, (s.workers j).pc = .idle ↔ j = 0 ∨ i ≤ j
  | .run started =>
      (1 ≤ started ∧ started ≤ nworkers) ∧ ∀ j, (s.workers j).pc = .idle ↔ started ≤ j
  | .returned rc out =>
      ((s.workers 0).pc = .returned)
      ∧ (∀ j, (s.workers j).pc = .idle ∨ (s.workers j).pc = .returned)
      ∧ (∀ j, nworkers ≤ j → (s.workers j).pc = .idle)
      ∧ rc = s.w.result ∧ out = s.merged nworkers stats

section Staff

variable {nworkers : Nat} {stats : LlapiScanStats} {s : Sweep}

/-- A worker that makes a step was started, and is one of those that are waited for. -/
theorem Sweep.Staffed.running (staffed : s.Staffed nworkers stats) {i : Nat}
    (live : (s.workers i).pc ≠ .idle) (busy : (s.workers i).pc ≠ .returned)
    : i < nworkers ∧ ∀ rc out, s.main ≠ .returned rc out := by
  unfold Sweep.Staffed at staffed
  constructor
  · by_contra beyond
    have beyond := Nat.not_lt.mp beyond
    cases main : s.main with
    | create started =>
        rw [main] at staffed
        exact live ((staffed.2 i).mpr (.inr (staffed.1.2.trans beyond)))
    | run started =>
        rw [main] at staffed
        exact live ((staffed.2 i).mpr (staffed.1.2.trans beyond))
    | returned rc out =>
        rw [main] at staffed
        exact live (staffed.2.2.1 i beyond)
  · intro rc out main
    rw [main] at staffed
    exact (staffed.2.1 i).elim live busy

/-- A step of a worker starts nobody. -/
theorem Sweep.Staffed.workerStep (staffed : s.Staffed nworkers stats) {i : Nat} {w : ScanShared}
    {me : ScanWorker} {event : SweepEvent}
    (step : WorkerStep host dev backend s.w (s.workers i) event w me)
    : Sweep.Staffed nworkers stats { s with w, workers := Function.update s.workers i me } := by
  obtain ⟨live, busy, still⟩ := step.live
  have going := (staffed.running live busy).2
  have same (j : Nat)
      : (Function.update s.workers i me j).pc = .idle ↔ (s.workers j).pc = .idle := by
    by_cases self : j = i
    · subst self
      rw [Function.update_self]
      exact iff_of_false still live
    · rw [Function.update_of_ne self]
  unfold Sweep.Staffed at staffed ⊢
  cases main : s.main with
  | create started =>
      rw [main] at staffed
      exact ⟨staffed.1, fun j => (same j).trans (staffed.2 j)⟩
  | run started =>
      rw [main] at staffed
      exact ⟨staffed.1, fun j => (same j).trans (staffed.2 j)⟩
  | returned rc out => exact absurd main (going rc out)

theorem Sweep.launch_idle (s : Sweep) (i j : Nat)
    : (s.launch i j).pc = .idle ↔ j ≠ i ∧ (s.workers j).pc = .idle := by
  by_cases self : j = i
  · subst self
    simp [Sweep.launch]
  · simp [Sweep.launch, self]

theorem Sweep.Staffed.step (staffed : s.Staffed nworkers stats) {label : SweepLabel} {s' : Sweep}
    (step : SweepStep host dev backend nworkers stats s label s')
    : s'.Staffed nworkers stats := by
  cases step with
  | worker i step => exact staffed.workerStep step
  | create at_ more =>
      unfold Sweep.Staffed at staffed
      rw [at_] at staffed
      obtain ⟨⟨first, _⟩, idle⟩ := staffed
      refine ⟨⟨Nat.le_succ_of_le first, more⟩, fun j => ?_⟩
      rw [s.launch_idle, idle]
      omega
  | created at_ =>
      unfold Sweep.Staffed at staffed
      rw [at_] at staffed
      obtain ⟨bounds, idle⟩ := staffed
      refine ⟨bounds, fun j => ?_⟩
      rw [s.launch_idle, idle]
      omega
  | @join started at_ finished =>
      unfold Sweep.Staffed at staffed
      rw [at_] at staffed
      obtain ⟨⟨first, last⟩, idle⟩ := staffed
      refine ⟨finished 0 first, fun j => ?_, fun j beyond => (idle j).mpr (last.trans beyond),
        rfl, rfl⟩
      rcases Nat.lt_or_ge j started with before | beyond
      · exact .inr (finished j before)
      · exact .inl ((idle j).mpr beyond)

/-- Who is started was not before. -/
theorem Sweep.Staffed.next_idle (staffed : s.Staffed nworkers stats) {started : Nat}
    (at_ : s.main = .create started)
    : (s.workers 0).pc = .idle ∧ (s.workers started).pc = .idle := by
  unfold Sweep.Staffed at staffed
  rw [at_] at staffed
  exact ⟨(staffed.2 0).mpr (.inl rfl), (staffed.2 started).mpr (.inr (Nat.le_refl _))⟩

end Staff

-----------------------------------------------------------------------------------------
-- The sweep
-----------------------------------------------------------------------------------------

/-- What holds of a worker all through a sweep. -/
structure WorkerOk (host : Host) (dev : ScanDev) (backend : Backend) (w : ScanShared)
    (trace : List SweepLabel) (i : Nat) (me : ScanWorker)
    : Prop where
  sized : me.swBuf.Sized host
  placed : me.Placed backend w trace
  filters : ∀ idx bare full rest, me.pc = .callFilter idx bare full rest → dev.sdFilter.isSome
  fresh : me.pc = .idle → takenBy i trace = [] ∧ handedBy i trace = []

/-- What holds all through a sweep. -/
structure Sweeping (host : Host) (dev : ScanDev) (backend : Backend) (nworkers : Nat)
    (stats : LlapiScanStats) (trace : List SweepLabel) (s : Sweep)
    : Prop where
  few : s.w.sdEnd ≤ dev.sdTgtInfo.ttChunks
  caused : s.w.Caused backend trace
  workers : ∀ i, WorkerOk host dev backend s.w trace i (s.workers i)
  dispatched : Dispatched s.w.sdCursor (fun i => takenBy i trace)
  covered : Covered s.w.sdCursor (fun i => takenBy i trace)
  handed
    : (↑(handedOver trace) : Multiset LlapiScanRec)
      = ∑ i ∈ Finset.range nworkers, (↑(handedBy i trace) : Multiset LlapiScanRec)
  staffed : s.Staffed nworkers stats

theorem Sweeping.begin {nworkers : Nat} {stats : LlapiScanStats} {bufs : Nat → ScanBuf}
    (some : 0 < nworkers) (sized : ∀ i, (bufs i).Sized host)
    : Sweeping host dev backend nworkers stats [] (.begin dev bufs) where
  few := Nat.le_refl _
  caused := ⟨fun set => absurd rfl set, fun set => absurd rfl set⟩
  workers i := {
    sized := sized i
    placed := rfl
    filters := fun _ _ _ _ at_ => by cases at_
    fresh := fun _ => ⟨rfl, rfl⟩
  }
  dispatched := .start
  covered idx below := absurd below (Nat.not_lt_zero idx)
  handed := (Finset.sum_eq_zero fun _ _ => rfl).symm
  staffed := ⟨⟨Nat.le_refl _, some⟩, fun j => ⟨fun _ => by omega, fun _ => rfl⟩⟩

section Workers

variable {w w' : ScanShared} {trace : List SweepLabel} {i : Nat} {me me' : ScanWorker}
    {event : SweepEvent}

theorem WorkerOk.step (ok : WorkerOk host dev backend w trace i me)
    (step : WorkerStep host dev backend w me event w' me')
    : WorkerOk host dev backend w' (trace ++ [.worker i event]) i me' where
  sized := step.sized ok.sized
  placed := step.placed i ok.placed
  filters _ _ _ _ at_ := step.filters at_
  fresh idle := absurd idle step.live.2.2

/-- A step of another worker. -/
theorem WorkerOk.other (ok : WorkerOk host dev backend w trace i me) (moves : w.Moves w')
    {j : Nat} (other : i ≠ j)
    : WorkerOk host dev backend w' (trace ++ [.worker j event]) i me where
  sized := ok.sized
  placed := ok.placed.moves moves _
  filters := ok.filters
  fresh idle := by
    rw [handedBy_other trace j event other, takenBy_other trace j event other]
    exact ok.fresh idle

/-- A step of the sweep itself. -/
theorem WorkerOk.main (ok : WorkerOk host dev backend w trace i me)
    : WorkerOk host dev backend w (trace ++ [.main]) i me where
  sized := ok.sized
  placed := ok.placed.moves .refl _
  filters := ok.filters
  fresh idle := by
    rw [handedBy_main, takenBy_main]
    exact ok.fresh idle

theorem WorkerOk.launch (ok : WorkerOk host dev backend w trace i me)
    : WorkerOk host dev backend w trace i { me with pc := .loadStop } where
  sized := ok.sized
  placed := trivial
  filters _ _ _ _ at_ := by cases at_
  fresh started := by cases started

end Workers

section Steps

variable {nworkers : Nat} {stats : LlapiScanStats} {trace : List SweepLabel} {s : Sweep}

/-- What has been handed over is what this worker and the others have. -/
theorem Sweeping.handed_worker (inv : Sweeping host dev backend nworkers stats trace s) {i : Nat}
    (one : i < nworkers) (event : SweepEvent)
    : (↑(handedOver (trace ++ [.worker i event])) : Multiset LlapiScanRec)
      = ∑ j ∈ Finset.range nworkers,
          (↑(handedBy j (trace ++ [.worker i event])) : Multiset LlapiScanRec) := by
  have member : i ∈ Finset.range nworkers := Finset.mem_range.mpr one
  have others
      : ∑ j ∈ (Finset.range nworkers).erase i,
          (↑(handedBy j (trace ++ [.worker i event])) : Multiset LlapiScanRec)
        = ∑ j ∈ (Finset.range nworkers).erase i,
            (↑(handedBy j trace) : Multiset LlapiScanRec) := by
    refine Finset.sum_congr rfl fun j other => ?_
    rw [handedBy_other trace i event (Finset.ne_of_mem_erase other)]
  rw [← Finset.add_sum_erase _ _ member, others, handedBy_self, handedOver_worker,
    ← Multiset.coe_add, ← Multiset.coe_add, inv.handed, ← Finset.add_sum_erase _ _ member]
  abel

/-- A step takes the chunk at the cursor, or none. -/
theorem WorkerStep.dispatch {w w' : ScanShared} {me me' : ScanWorker} {event : SweepEvent}
    (step : WorkerStep host dev backend w me event w' me')
    : (event.chunk = some w.sdCursor ∧ w'.sdCursor = w.sdCursor + 1)
      ∨ (event.chunk = none ∧ w'.sdCursor = w.sdCursor) := by
  cases step with
  | take at_ => exact .inl ⟨rfl, rfl⟩
  | _ => exact .inr ⟨rfl, rfl⟩

theorem takenBy_worker (trace : List SweepLabel) (i : Nat) (event : SweepEvent)
    : (fun j => takenBy j (trace ++ [.worker i event]))
      = Function.update (fun j => takenBy j trace) i (takenBy i trace ++ event.chunk.toList) := by
  funext j
  by_cases same : j = i
  · subst same
    rw [Function.update_self, takenBy_self]
  · rw [Function.update_of_ne same, takenBy_other trace i event same]

theorem Sweeping.dispatch (inv : Sweeping host dev backend nworkers stats trace s) {i : Nat}
    {event : SweepEvent} {w : ScanShared} {me : ScanWorker}
    (step : WorkerStep host dev backend s.w (s.workers i) event w me)
    : Dispatched w.sdCursor (fun j => takenBy j (trace ++ [.worker i event]))
      ∧ Covered w.sdCursor (fun j => takenBy j (trace ++ [.worker i event])) := by
  rw [takenBy_worker]
  rcases step.dispatch with ⟨chunk, cursor⟩ | ⟨chunk, cursor⟩
  · rw [chunk, cursor]
    exact ⟨inv.dispatched.take i, inv.covered.take i⟩
  · rw [chunk, cursor, Option.toList_none, List.append_nil, Function.update_eq_self]
    exact ⟨inv.dispatched, inv.covered⟩

theorem Sweeping.workerStep (inv : Sweeping host dev backend nworkers stats trace s) {i : Nat}
    {event : SweepEvent} {w : ScanShared} {me : ScanWorker}
    (step : WorkerStep host dev backend s.w (s.workers i) event w me)
    : Sweeping host dev backend nworkers stats (trace ++ [.worker i event])
        { s with w, workers := Function.update s.workers i me } := by
  obtain ⟨live, busy, _⟩ := step.live
  obtain ⟨one, _⟩ := inv.staffed.running live busy
  obtain ⟨dispatched, covered⟩ := inv.dispatch step
  exact {
    few := step.moves.end_.trans inv.few
    caused := step.caused i (inv.workers i).placed inv.caused
    workers := (Function.forall_update_iff s.workers
        (WorkerOk host dev backend w (trace ++ [.worker i event]))).mpr
      ⟨(inv.workers i).step step, fun j other => (inv.workers j).other step.moves other⟩
    dispatched
    covered
    handed := inv.handed_worker one event
    staffed := inv.staffed.workerStep step
  }

/-- A step of the sweep itself leaves all but the worker it starts, if any, as it was. -/
theorem Sweeping.mainStep (inv : Sweeping host dev backend nworkers stats trace s)
    {workers : Nat → ScanWorker} {main : SweepPc}
    (launched : ∀ i, WorkerOk host dev backend s.w (trace ++ [.main]) i (workers i))
    (staffed : Sweep.Staffed nworkers stats { s with workers, main })
    : Sweeping host dev backend nworkers stats (trace ++ [.main]) { s with workers, main } where
  few := inv.few
  caused := inv.caused.main
  workers := launched
  dispatched := by simpa only [takenBy_main] using inv.dispatched
  covered := by simpa only [takenBy_main] using inv.covered
  handed := by simpa only [handedOver_main, handedBy_main] using inv.handed
  staffed

theorem Sweeping.launched (inv : Sweeping host dev backend nworkers stats trace s) (i j : Nat)
    : WorkerOk host dev backend s.w (trace ++ [.main]) j (s.launch i j) :=
  (Function.forall_update_iff s.workers (WorkerOk host dev backend s.w (trace ++ [.main]))).mpr
    ⟨(inv.workers i).main.launch, fun j _ => (inv.workers j).main⟩ j

theorem Sweeping.step (inv : Sweeping host dev backend nworkers stats trace s) {label : SweepLabel}
    {s' : Sweep} (step : SweepStep host dev backend nworkers stats s label s')
    : Sweeping host dev backend nworkers stats (trace ++ [label]) s' := by
  have staffed := inv.staffed.step step
  cases step with
  | worker i step => exact inv.workerStep step
  | @create i at_ more => exact inv.mainStep (inv.launched i) staffed
  | created at_ => exact inv.mainStep (inv.launched 0) staffed
  | join at_ finished => exact inv.mainStep (fun i => (inv.workers i).main) staffed

/-- Who returned from a sweep that goes on has found nothing left to take. -/
theorem Sweeping.drained (inv : Sweeping host dev backend nworkers stats trace s) {i : Nat}
    (returned : (s.workers i).pc = .returned) (stop : s.w.sdStopRc = 0)
    (error : s.w.sdError = 0)
    : s.w.sdEnd ≤ s.w.sdCursor := by
  have placed := (inv.workers i).placed
  unfold ScanWorker.Placed at placed
  rw [returned] at placed
  exact (placed.resolve_left (absurd stop)).resolve_left (absurd error)

theorem Sweep.merged_eq (s : Sweep) (nworkers : Nat) (stats : LlapiScanStats)
    : s.merged nworkers stats = stats + ∑ i ∈ Finset.range nworkers, (s.workers i).swStats := by
  unfold Sweep.merged
  induction nworkers with
  | zero => simp
  | succ nworkers ih =>
      rw [List.range_succ, List.foldl_append, ih, Finset.sum_range_succ, ← add_assoc]
      rfl

theorem ScanShared.result_zero {w : ScanShared} (result : w.result = 0)
    : w.sdStopRc = 0 ∧ w.sdError = 0 := by
  unfold ScanShared.result at result
  split at result
  · contradiction
  · rename_i going
    exact ⟨not_not.mp going, result⟩

end Steps

end LfuScan.ScanDevice
