import LfuScan.ScanDevice.Record
import LfuScan.Foundations.Transition
import Mathlib.Algebra.Group.Pi.Basic
import Mathlib.Algebra.BigOperators.Group.Finset.Basic

/-! One sweep of a target by several workers. They take chunks from a shared cursor; a worker
that has seen the last chunk lowers the end, a consumer that wants no more leaves its value
in `sd_stop_rc`, and a chunk that cannot be scanned leaves its error in `sd_error`.

The steps are the accesses to what the workers share and the calls of the consumer, so that
another worker may run between any two of them.
-/

namespace LfuScan.ScanDevice

open LfuScan.Lustre LfuScan.Foundations LfuScan.Filter

/-- `enum llapi_scan_skip`. -/
inductive ScanSkip
  | invalid
  | io
  | xattr
deriving DecidableEq

/-- What a chunk comes across: an object that cannot be read or is not a legal one, or an
object as it is before its attributes are read and, unless reading them fails, after.
-/
inductive Item
  | unread (why : ScanSkip) (early : why ≠ .xattr)
  | object (bare : LlapiScanObj) (full : Option LlapiScanObj)

/-- How `sb_scan_chunk` returns when the sink lets it go on: more may follow, `*done` is set,
or it failed.
-/
inductive ChunkEnd
  | more
  | done
  | failed (rc : Int) (negative : rc < 0)

/-- The `sb_scan_chunk` of a backend. No chunk is scanned twice in a sweep, so what it does is
a matter of the chunk.
-/
structure Backend where
  chunk : Nat → List Item
  ends : Nat → ChunkEnd

/-- `*done` says that no chunk after this one holds anything. -/
def Backend.DoneSound (backend : Backend) (chunks : Nat) : Prop :=
  ∀ idx, backend.ends idx = .done → ∀ later, idx < later → later < chunks →
    backend.chunk later = []

/-- The counters of `struct llapi_scan_stats`, one for each class among them. -/
inductive Counter
  | seen
  | emitted
  | skipped
  | filtered
  | cls (c : ScanClass)
deriving DecidableEq

/-- `struct llapi_scan_stats`. -/
abbrev LlapiScanStats := Counter → Nat

def LlapiScanStats.bump (st : LlapiScanStats) (counter : Counter) : LlapiScanStats :=
  st + Pi.single counter 1

def scanSinkSkip (why : ScanSkip) (st : LlapiScanStats) : LlapiScanStats :=
  let st := if why ≠ .xattr then st.bump .seen else st
  st.bump .skipped

-----------------------------------------------------------------------------------------
-- Workers
-----------------------------------------------------------------------------------------

/-- Where a worker is. -/
inductive WorkerPc
  | idle
  | loadStop
  | loadError
  | fetchChunk
  | loadEnd (idx : Nat)
  /-- in `sb_scan_chunk`, with what it has still to come across -/
  | scan (idx : Nat) (rest : List Item)
  /-- in the pre-filter, the object counted as seen -/
  | seen (idx : Nat) (bare : LlapiScanObj) (full : Option LlapiScanObj) (rest : List Item)
  | callFilter (idx : Nat) (bare : LlapiScanObj) (full : Option LlapiScanObj)
    (rest : List Item)
  /-- past the pre-filter -/
  | readXattrs (idx : Nat) (full : Option LlapiScanObj) (rest : List Item)
  /-- the record counted as handed over -/
  | callCb (idx : Nat) (record : LlapiScanRec) (rest : List Item)
  | setStop (rc : Int)
  /-- out of `sb_scan_chunk` with an error, the consumer's stop among them -/
  | failed (rc : Int)
  | setError (rc : Int)
  | lowerEnd (idx : Nat)
  | swapEnd (idx : Nat) (seen : Nat)
  | returned

/-- `struct scan_worker` with the locals of `scan_worker_run`. -/
structure ScanWorker where
  pc : WorkerPc := .idle
  swStats : LlapiScanStats := 0
  swBuf : ScanBuf

/-- The part of `struct scan_dev` the workers write. -/
structure ScanShared where
  sdCursor : Nat := 0
  sdEnd : Nat
  sdStopRc : Int := 0
  sdError : Int := 0

/-- `__atomic_compare_exchange_n` from zero. -/
def swapZero (value new : Int) : Int :=
  if value = 0 then new else value

/-- What a step shows outside: a chunk taken, a call of the filter or of the consumer with its
answer.
-/
inductive SweepEvent
  | quiet
  | took (idx : Nat)
  | filter (record : LlapiScanRec) (rc : Int)
  | handed (record : LlapiScanRec) (rc : Int)

section Steps

variable (host : Host) (dev : ScanDev) (backend : Backend)

/-- One step of `scan_worker_run`. -/
inductive WorkerStep
    : ScanShared → ScanWorker → SweepEvent → ScanShared → ScanWorker → Prop
  | stopped {w me} (at_ : me.pc = .loadStop) (stop : w.sdStopRc ≠ 0)
    : WorkerStep w me .quiet w { me with pc := .returned }
  | notStopped {w me} (at_ : me.pc = .loadStop) (going : w.sdStopRc = 0)
    : WorkerStep w me .quiet w { me with pc := .loadError }
  | errored {w me} (at_ : me.pc = .loadError) (error : w.sdError ≠ 0)
    : WorkerStep w me .quiet w { me with pc := .returned }
  | notErrored {w me} (at_ : me.pc = .loadError) (going : w.sdError = 0)
    : WorkerStep w me .quiet w { me with pc := .fetchChunk }
  | take {w me} (at_ : me.pc = .fetchChunk)
    : WorkerStep w me (.took w.sdCursor) { w with sdCursor := w.sdCursor + 1 }
        { me with pc := .loadEnd w.sdCursor }
  | beyond {w me idx} (at_ : me.pc = .loadEnd idx) (past : w.sdEnd ≤ idx)
    : WorkerStep w me .quiet w { me with pc := .returned }
  | within {w me idx} (at_ : me.pc = .loadEnd idx) (inside : idx < w.sdEnd)
    : WorkerStep w me .quiet w { me with pc := .scan idx (backend.chunk idx) }
  | skip {w me idx why early rest} (at_ : me.pc = .scan idx (.unread why early :: rest))
    : WorkerStep w me .quiet w
        { me with pc := .scan idx rest, swStats := scanSinkSkip why me.swStats }
  | see {w me idx bare full rest} (at_ : me.pc = .scan idx (.object bare full :: rest))
    : WorkerStep w me .quiet w
        { me with pc := .seen idx bare full rest, swStats := me.swStats.bump .seen }
  | halted {w me idx bare full rest} (at_ : me.pc = .seen idx bare full rest)
    (stop : w.sdStopRc ≠ 0)
    : WorkerStep w me .quiet w { me with pc := .failed (-1) }
  | unfiltered {w me idx bare full rest} (at_ : me.pc = .seen idx bare full rest)
    (going : w.sdStopRc = 0) (none : dev.sdFilter = none)
    : WorkerStep w me .quiet w { me with pc := .readXattrs idx full rest }
  | filtered {w me idx bare full rest} (at_ : me.pc = .seen idx bare full rest)
    (going : w.sdStopRc = 0) (some : dev.sdFilter.isSome)
    : WorkerStep w me .quiet w { me with pc := .callFilter idx bare full rest }
  | dropped {w me idx bare full rest filter} (at_ : me.pc = .callFilter idx bare full rest)
    (by_ : dev.sdFilter = some filter) (answer : 0 < filter (scanRecObj host dev bare))
    : WorkerStep w me
        (.filter (scanRecObj host dev bare) (filter (scanRecObj host dev bare))) w
        { me with pc := .scan idx rest, swStats := me.swStats.bump .filtered }
  | refused {w me idx bare full rest filter} (at_ : me.pc = .callFilter idx bare full rest)
    (by_ : dev.sdFilter = some filter) (answer : filter (scanRecObj host dev bare) < 0)
    : WorkerStep w me
        (.filter (scanRecObj host dev bare) (filter (scanRecObj host dev bare))) w
        { me with pc := .setStop (filter (scanRecObj host dev bare)) }
  | passed {w me idx bare full rest filter} (at_ : me.pc = .callFilter idx bare full rest)
    (by_ : dev.sdFilter = some filter) (answer : filter (scanRecObj host dev bare) = 0)
    : WorkerStep w me (.filter (scanRecObj host dev bare) 0) w
        { me with pc := .readXattrs idx full rest }
  | unreadable {w me idx rest} (at_ : me.pc = .readXattrs idx none rest)
    : WorkerStep w me .quiet w
        { me with pc := .scan idx rest, swStats := scanSinkSkip .xattr me.swStats }
  | keptBack {w me idx obj rest buf cls} (at_ : me.pc = .readXattrs idx (some obj) rest)
    (sinks : sinkRecord host dev me.swBuf obj = some (buf, cls, none))
    : WorkerStep w me .quiet w
        { pc := .scan idx rest, swStats := me.swStats.bump (.cls cls), swBuf := buf }
  | found {w me idx obj rest buf cls record}
    (at_ : me.pc = .readXattrs idx (some obj) rest)
    (sinks : sinkRecord host dev me.swBuf obj = some (buf, cls, some record))
    : WorkerStep w me .quiet w
        {
          pc := .callCb idx record rest
          swStats := (me.swStats.bump (.cls cls)).bump .emitted
          swBuf := buf
        }
  | handed {w me idx record rest} (at_ : me.pc = .callCb idx record rest)
    : WorkerStep w me (.handed record 0) w { me with pc := .scan idx rest }
  | handedLast {w me idx record rest} (at_ : me.pc = .callCb idx record rest) (rc : Int)
    (stop : rc ≠ 0)
    : WorkerStep w me (.handed record rc) w { me with pc := .setStop rc }
  | setStop {w me rc} (at_ : me.pc = .setStop rc)
    : WorkerStep w me .quiet { w with sdStopRc := swapZero w.sdStopRc rc }
        { me with pc := .failed (-1) }
  | more {w me idx} (at_ : me.pc = .scan idx []) (ends : backend.ends idx = .more)
    : WorkerStep w me .quiet w { me with pc := .loadStop }
  | done {w me idx} (at_ : me.pc = .scan idx []) (ends : backend.ends idx = .done)
    : WorkerStep w me .quiet w { me with pc := .lowerEnd idx }
  | broke {w me idx rc negative} (at_ : me.pc = .scan idx [])
    (ends : backend.ends idx = .failed rc negative)
    : WorkerStep w me .quiet w { me with pc := .failed rc }
  | recorded {w me rc} (at_ : me.pc = .failed rc) (stop : w.sdStopRc ≠ 0)
    : WorkerStep w me .quiet w { me with pc := .returned }
  | unrecorded {w me rc} (at_ : me.pc = .failed rc) (going : w.sdStopRc = 0)
    : WorkerStep w me .quiet w { me with pc := .setError rc }
  | setError {w me rc} (at_ : me.pc = .setError rc)
    : WorkerStep w me .quiet { w with sdError := swapZero w.sdError rc }
        { me with pc := .returned }
  | lower {w me idx} (at_ : me.pc = .lowerEnd idx)
    : WorkerStep w me .quiet w { me with pc := .swapEnd idx w.sdEnd }
  | low {w me idx seen} (at_ : me.pc = .swapEnd idx seen) (enough : seen ≤ idx + 1)
    : WorkerStep w me .quiet w { me with pc := .returned }
  | swapped {w me idx seen} (at_ : me.pc = .swapEnd idx seen) (above : idx + 1 < seen)
    (same : w.sdEnd = seen)
    : WorkerStep w me .quiet { w with sdEnd := idx + 1 } { me with pc := .returned }
  | overtaken {w me idx seen} (at_ : me.pc = .swapEnd idx seen) (above : idx + 1 < seen)
    (moved : w.sdEnd ≠ seen)
    : WorkerStep w me .quiet w { me with pc := .swapEnd idx w.sdEnd }

end Steps

/-- Where `scan_device_sweep` itself is. -/
inductive SweepPc
  | create (started : Nat)
  | run (started : Nat)
  | returned (rc : Int) (stats : LlapiScanStats)

/-- A sweep in progress. -/
structure Sweep where
  w : ScanShared
  workers : Nat → ScanWorker
  main : SweepPc := .create 1

/-- `scan_device_sweep` on entry: nothing is left of an earlier sweep but what the buffers
hold.
-/
def Sweep.begin (dev : ScanDev) (bufs : Nat → ScanBuf) : Sweep :=
  { w := { sdEnd := dev.sdTgtInfo.ttChunks }, workers := fun i => { swBuf := bufs i } }

/-- Who made a step, and what it shows. -/
inductive SweepLabel
  | main
  | worker (i : Nat) (event : SweepEvent)

/-- Start worker `i`. -/
def Sweep.launch (s : Sweep) (i : Nat) : Nat → ScanWorker :=
  Function.update s.workers i { s.workers i with pc := .loadStop }

/-- `scan_stats_merge` over all workers, those never started included. -/
def Sweep.merged (s : Sweep) (nworkers : Nat) (stats : LlapiScanStats) : LlapiScanStats :=
  (List.range nworkers).foldl (fun merged i => merged + (s.workers i).swStats) stats

/-- What the sweep returns. -/
def ScanShared.result (w : ScanShared) : Int :=
  if w.sdStopRc ≠ 0 then w.sdStopRc else w.sdError

/-- One step of `scan_device_sweep` or of one of its workers. The calling thread is worker 0
once the others were started.
-/
inductive SweepStep (host : Host) (dev : ScanDev) (backend : Backend) (nworkers : Nat)
    (stats : LlapiScanStats)
    : Sweep → SweepLabel → Sweep → Prop
  | create {s : Sweep} {i : Nat} (at_ : s.main = .create i) (more : i < nworkers)
    : SweepStep host dev backend nworkers stats s .main
        { s with workers := s.launch i, main := .create (i + 1) }
  | created {s : Sweep} {i : Nat} (at_ : s.main = .create i)
    -- all of them, or as many as there are threads for
    : SweepStep host dev backend nworkers stats s .main
        { s with workers := s.launch 0, main := .run i }
  | join {s : Sweep} {started : Nat} (at_ : s.main = .run started)
    (finished : ∀ i < started, (s.workers i).pc = .returned)
    : SweepStep host dev backend nworkers stats s .main
        { s with main := .returned s.w.result (s.merged nworkers stats) }
  | worker {s : Sweep} (i : Nat) {event : SweepEvent} {w : ScanShared} {me : ScanWorker}
    (step : WorkerStep host dev backend s.w (s.workers i) event w me)
    : SweepStep host dev backend nworkers stats s (.worker i event)
        { s with w, workers := Function.update s.workers i me }

/-- The chunk a step takes. -/
def SweepEvent.chunk : SweepEvent → Option Nat
  | .took idx => some idx
  | _ => none

/-- The record a step hands over. -/
def SweepEvent.record : SweepEvent → Option LlapiScanRec
  | .handed record _ => some record
  | _ => none

/-- The chunks a worker took. -/
def takenBy (i : Nat) (trace : List SweepLabel) : List Nat :=
  trace.filterMap fun
    | .main => none
    | .worker j event => if j = i then event.chunk else none

/-- The records a worker handed over. -/
def handedBy (i : Nat) (trace : List SweepLabel) : List LlapiScanRec :=
  trace.filterMap fun
    | .main => none
    | .worker j event => if j = i then event.record else none

/-- The records handed over, in order. -/
def handedOver (trace : List SweepLabel) : List LlapiScanRec :=
  trace.filterMap fun
    | .main => none
    | .worker _ event => event.record

/-- A consumer's answer that stops the sweep. -/
def Answered (trace : List SweepLabel) (rc : Int) : Prop :=
  ∃ i record,
    (rc < 0 ∧ .worker i (.filter record rc) ∈ trace)
    ∨ (rc ≠ 0 ∧ .worker i (.handed record rc) ∈ trace)

-----------------------------------------------------------------------------------------
-- Sweeps of a few workers
-----------------------------------------------------------------------------------------

def idleWorker : ScanWorker := { swBuf := .cleared oneHost }

/-- A sweep with these workers. -/
def crew (w : ScanShared) (us : List ScanWorker) (main : SweepPc) : Sweep :=
  { w, workers := fun i => us.getD i idleWorker, main }

theorem crew_set (w : ScanShared) {us : List ScanWorker} {i : Nat} (inside : i < us.length)
    (me : ScanWorker) (main : SweepPc)
    : crew w (us.set i me) main
      = { w, workers := Function.update (fun j => us.getD j idleWorker) i me, main } := by
  rw [crew, Sweep.mk.injEq]
  refine ⟨rfl, ?_, rfl⟩
  funext j
  by_cases same : j = i
  · subst same
    simp [List.getD, inside]
  · rw [Function.update_of_ne same]
    simp [List.getD, List.getElem?_set_ne (Ne.symm same)]

theorem crew_begin (dev : ScanDev) (n : Nat)
    : Sweep.begin dev (fun _ => .cleared oneHost)
      = crew { sdEnd := dev.sdTgtInfo.ttChunks } (List.replicate n idleWorker) (.create 1) := by
  have idle (i : Nat) : (List.replicate n idleWorker).getD i idleWorker = idleWorker := by
    simp only [List.getD, List.getElem?_replicate]
    split <;> rfl
  simp only [crew, idle]
  rfl

section Crew

variable {dev : ScanDev} {backend : Backend} {nworkers : Nat} {stats : LlapiScanStats}
  {w w' : ScanShared} {us : List ScanWorker} {i : Nat}

theorem crew_create (inside : i < us.length) (more : i < nworkers)
    : SweepStep oneHost dev backend nworkers stats (crew w us (.create i)) .main
        (crew w (us.set i { us.getD i idleWorker with pc := .loadStop }) (.create (i + 1))) := by
  rw [crew_set w inside]
  exact .create rfl more

theorem crew_created (inside : 0 < us.length)
    : SweepStep oneHost dev backend nworkers stats (crew w us (.create i)) .main
        (crew w (us.set 0 { us.getD 0 idleWorker with pc := .loadStop }) (.run i)) := by
  rw [crew_set w inside]
  exact .created rfl

theorem crew_step (i : Nat) (inside : i < us.length) {main : SweepPc} {event : SweepEvent}
    {me : ScanWorker}
    (step : WorkerStep oneHost dev backend w (us.getD i idleWorker) event w' me)
    : SweepStep oneHost dev backend nworkers stats (crew w us main) (.worker i event)
        (crew w' (us.set i me) main) := by
  rw [crew_set w' inside]
  exact .worker i step

/-- A step of the calling thread. -/
theorem crew_first {a a' : ScanWorker} {main : SweepPc} {event : SweepEvent}
    (step : WorkerStep oneHost dev backend w a event w' a')
    : SweepStep oneHost dev backend nworkers stats (crew w (a :: us) main) (.worker 0 event)
        (crew w' (a' :: us) main) :=
  have inside : 0 < (a :: us).length := Nat.zero_lt_succ _
  crew_step 0 inside step

/-- A step of the thread next to it. -/
theorem crew_second {a b b' : ScanWorker} {main : SweepPc} {event : SweepEvent}
    (step : WorkerStep oneHost dev backend w b event w' b')
    : SweepStep oneHost dev backend nworkers stats (crew w (a :: b :: us) main)
        (.worker 1 event) (crew w' (a :: b' :: us) main) :=
  have inside : 1 < (a :: b :: us).length := Nat.succ_lt_succ (Nat.zero_lt_succ _)
  crew_step 1 inside step

end Crew

/-- What is handed over of an object that is shown. -/
theorem shown_sinks {dev : ScanDev} {obj : LlapiScanObj}
    (shown : (objectSink oneHost dev obj).2.isSome)
    : ∃ cls record, objectSink oneHost dev obj = (cls, some record)
        ∧ ∃ left, sinkRecord oneHost dev (.cleared oneHost) obj
          = some (left, cls, some record) := by
  obtain ⟨left, sinks, _⟩ := sinkRecord_objectSink (ScanBuf.cleared_sized oneHost) dev obj
  obtain ⟨record, shown⟩ := Option.isSome_iff_exists.mp shown
  have sunk : objectSink oneHost dev obj = ((objectSink oneHost dev obj).1, some record) :=
    Prod.ext rfl shown
  exact ⟨_, record, sunk, left, sunk ▸ sinks⟩

/-- One worker sweeps a target of one object, and its record is handed over. -/
theorem oneObject_sweep {backend : Backend} {bare obj : LlapiScanObj}
    (holds : backend.chunk 0 = [.object bare (some obj)]) (ends : backend.ends 0 = .done)
    (shown : (objectSink oneHost oneDev obj).2.isSome)
    : ∃ trace s record out,
        Run (SweepStep oneHost oneDev backend 1 0)
          (.begin oneDev fun _ => .cleared oneHost) trace s
        ∧ s.main = .returned 0 out ∧ handedOver trace = [record]
        ∧ ∀ value, ¬ Answered trace value := by
  obtain ⟨_, record, _, _, sinks⟩ := shown_sinks shown
  have started
      : Run (SweepStep oneHost oneDev backend 1 0)
          (crew { sdEnd := 1 } [idleWorker] (.create 1)) _
          (crew { sdEnd := 1 } [{ idleWorker with pc := .loadStop }] (.run 1)) :=
    Run.nil.snoc (crew_created (by decide))
  have taken := ((started.snoc (crew_first (.notStopped rfl rfl))).snoc
    (crew_first (.notErrored rfl rfl))).snoc (crew_first (.take rfl))
  have found := (((taken.snoc (crew_first (.within rfl Nat.zero_lt_one))).snoc
    (crew_first (.see (congrArg (WorkerPc.scan 0) holds)))).snoc
    (crew_first (.unfiltered rfl rfl rfl))).snoc (crew_first (.found rfl sinks))
  have ended := (((found.snoc (crew_first (.handed rfl))).snoc
    (crew_first (.done rfl ends))).snoc (crew_first (.lower rfl))).snoc
    (crew_first (.low rfl (Nat.le_refl 1)))
  rw [crew_begin oneDev 1]
  refine ⟨_, _, record, _, ended.snoc (.join rfl fun i one => ?_), rfl, rfl, ?_⟩
  · rw [Nat.lt_one_iff.mp one]
    rfl
  · rintro value ⟨i, record, ⟨_, asked⟩ | ⟨stop, asked⟩⟩
    · simp at asked
    · simp [stop] at asked

/-- A file in the first chunk and a directory in the second, which is the last to hold anything.
-/
def twoObjects : Backend :=
  {
    chunk := fun
      | 0 => [.object fileB (some fileB)]
      | 1 => [.object directoryA (some directoryA)]
      | _ => []
    ends := fun
      | 1 => .done
      | _ => .more
  }

theorem twoObjects_doneSound (chunks : Nat) : twoObjects.DoneSound chunks := by
  intro idx done later after _
  match idx, later with
  | 0, _ | _ + 2, _ => cases done
  | 1, 0 | 1, 1 => omega
  | 1, _ + 2 => rfl

/-- Two workers, each with a record for the consumer: they have taken a chunk each. -/
theorem twoObjects_found
    : ∃ trace file dir stats stats' buf buf',
        Run (SweepStep oneHost namingDev twoObjects 2 0)
          (.begin namingDev fun _ => .cleared oneHost) trace
          (crew { sdCursor := 2, sdEnd := 3 }
            [
              { pc := .callCb 0 file [], swStats := stats, swBuf := buf },
              { pc := .callCb 1 dir [], swStats := stats', swBuf := buf' }
            ]
            (.run 2))
        ∧ handedOver trace = []
        ∧ ∀ value, ¬ Answered trace value := by
  have shownFile : (objectSink oneHost namingDev fileB).2.isSome := by decide +kernel
  have shownDir : (objectSink oneHost namingDev directoryA).2.isSome := by decide +kernel
  obtain ⟨_, file, _, _, sinksFile⟩ := shown_sinks shownFile
  obtain ⟨_, dir, _, _, sinksDir⟩ := shown_sinks shownDir
  have both : 1 < [idleWorker, idleWorker].length := by decide
  have started
      : Run (SweepStep oneHost namingDev twoObjects 2 0)
          (crew { sdEnd := 3 } [idleWorker, idleWorker] (.create 1)) _
          (crew { sdEnd := 3 }
            [{ idleWorker with pc := .loadStop }, { idleWorker with pc := .loadStop }] (.run 2)) :=
    (Run.nil.snoc (crew_create both (by decide))).snoc (crew_created (by decide))
  have taken := (((started.snoc (crew_first (.notStopped rfl rfl))).snoc
    (crew_first (.notErrored rfl rfl))).snoc
    (crew_first (.take rfl)))
  have takenBoth := (((taken.snoc (crew_second (.notStopped rfl rfl))).snoc
    (crew_second (.notErrored rfl rfl))).snoc
    (crew_second (.take rfl)))
  have foundFile := ((((takenBoth.snoc (crew_first (.within rfl (by decide)))).snoc
    (crew_first (.see rfl))).snoc
    (crew_first (.unfiltered rfl rfl rfl)))).snoc
    (crew_first (.found rfl sinksFile))
  have foundBoth := ((((foundFile.snoc (crew_second (.within rfl (by decide)))).snoc
    (crew_second (.see rfl))).snoc
    (crew_second (.unfiltered rfl rfl rfl)))).snoc
    (crew_second (.found rfl sinksDir))
  rw [crew_begin namingDev 2]
  refine ⟨_, file, dir, _, _, _, _, foundBoth, rfl, ?_⟩
  rintro value ⟨i, record, ⟨_, asked⟩ | ⟨stop, asked⟩⟩ <;> simp at asked

/-- The rest of the sweep: the directory's chunk is the last, so the end is lowered, and the
other worker finds the third chunk beyond it.
-/
theorem twoObjects_sweep
    : ∃ trace s out,
        Run (SweepStep oneHost namingDev twoObjects 2 0)
          (.begin namingDev fun _ => .cleared oneHost) trace s
        ∧ s.main = .returned 0 out
        ∧ s.w.sdEnd = 2
        ∧ (handedOver trace).length = 2 := by
  obtain ⟨trace, file, dir, _, _, _, _, found, none_, _⟩ := twoObjects_found
  have lowered := (((found.snoc (crew_second (.handed rfl))).snoc
    (crew_second (.done rfl rfl))).snoc (crew_second (.lower rfl))).snoc
    (crew_second (.swapped rfl (by decide) rfl))
  have ended := (((((lowered.snoc (crew_first (.handed rfl))).snoc
    (crew_first (.more rfl rfl))).snoc (crew_first (.notStopped rfl rfl))).snoc
    (crew_first (.notErrored rfl rfl))).snoc (crew_first (.take rfl))).snoc
    (crew_first (.beyond rfl (by decide)))
  refine ⟨_, _, _, ended.snoc (.join rfl fun i two => ?_), rfl, rfl, ?_⟩
  · match i with
    | 0 | 1 => rfl
  · have handed := congrArg List.length none_
    simp [handedOver, SweepEvent.record] at handed ⊢
    omega

end LfuScan.ScanDevice
