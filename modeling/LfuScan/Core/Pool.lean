import LfuScan.Core.Object
import LfuScan.Foundations.Transition

/-! The chunked parallel scan: workers take chunk indices from a shared cursor, scan them
through the backend, and stop when one of them has seen the end.

The steps are the accesses to what the threads share; a worker's own entries are visited
one at a time, so that any other thread may run in between.
-/

namespace LfuScan.Core

open LfuScan.Lustre LfuScan.Filter LfuScan.Foundations

/-- What a backend does with one entry of its object table: the counters it bumps itself,
and the object it hands to the core, with whether an LMA was found and the attributes read.
-/
structure Visit where
  own : LfuStats := {}
  object : Option (LfuRec × Bool × Option LfuEas) := none

/-- The `scan_chunk` of a backend: the entries of each chunk, the values of `*done` it may
leave, and the chunks it may fail on.
-/
structure Backend where
  chunk : Nat → List Visit
  mayFinish : Nat → Bool → Prop
  mayFail : Nat → Prop

/-- `*done` is set only when nothing lies in any later chunk. -/
def Backend.DoneSound (backend : Backend) : Prop :=
  ∀ idx, backend.mayFinish idx true → ∀ later > idx, backend.chunk later = []

/-- One object through the shared pipeline. -/
def visitObject (env : Platform) (cx : LfuCtx) (rec : LfuRec) (haveLma : Bool)
    (eas : Option LfuEas)
    : LfuCtx × List Line :=
  let (survives, cx) := lfuPrefilter cx rec
  if survives then lfuObject env cx rec haveLma eas else (cx, [])

def visitEntry (env : Platform) (cx : LfuCtx) (entry : Visit) : LfuCtx × List Line :=
  let cx := { cx with st := lfuStatsMerge cx.st entry.own }
  match entry.object with
  | none => (cx, [])
  | some (rec, haveLma, eas) => visitObject env cx rec haveLma eas

/-- A backend's loop over entries, which ends early when the limit is reached. -/
def visitEntries (env : Platform) : LfuCtx → List Visit → LfuCtx × List Line
  | cx, [] => (cx, [])
  | cx, entry :: rest =>
      if cx.stop then
        (cx, [])
      else
        let first := visitEntry env cx entry
        let others := visitEntries env first.1 rest
        (others.1, first.2 ++ others.2)

/-- Where a worker is: inside `scan_chunk` it has the entries left to visit, and before
`lfu_set_done` the error it will report.
-/
inductive WorkerPc
  | unborn
  | init
  | loop
  | scanChunk (idx : Nat) (rest : List Visit)
  | setDone (error : Bool)
  | returned

/-- `struct lfu_worker` with the locals of `lfu_worker_main`, and the chunks it has scanned
to completion.
-/
structure Worker where
  pc : WorkerPc := .unborn
  cx : LfuCtx
  scanned : List Nat := []

/-- `struct lfu_work` with the output of the scan, and what happened to it so far: whether
a call failed, whether the limit stopped a worker, and the chunks that reported the end.
-/
structure LfuWork where
  cursor : Nat := 0
  done : Bool := false
  error : Bool := false
  out : List Line := []
  failed : Bool := false
  limited : Bool := false
  reported : List Nat := []

/-- Where `lfu_scan` itself is. -/
inductive MainPc
  | start
  | create (i : Nat)
  | join
  | returned (rc : Int)

/-- A scan in progress. -/
structure Pool where
  w : LfuWork := {}
  nthreads : Nat
  workers : Nat → Worker
  st : LfuStats := 0
  main : MainPc := .start

/-- The context every worker starts with. -/
def workerCtx (o : LfuOpts) (ops : LfuTargetOps) (now : Int) : LfuCtx :=
  { o, ops, now, needs := lfuFilterNeeds o.filter }

/-- `lfu_scan` on entry. -/
def Pool.begin (o : LfuOpts) (ops : LfuTargetOps) (now : Int) (threads : Nat) : Pool :=
  { nthreads := threads, workers := fun _ => { cx := workerCtx o ops now } }

/-- One step of `lfu_worker_main`. -/
inductive WorkerStep (env : Platform) (backend : Backend)
    : LfuWork → Worker → LfuWork → Worker → Prop
  | initialised {w me} (at_ : me.pc = .init)
    : WorkerStep env backend w me w { me with pc := .loop }
  | initFailed {w me} (at_ : me.pc = .init)
    : WorkerStep env backend w me { w with failed := true } { me with pc := .setDone true }
  | nextChunk {w me} (at_ : me.pc = .loop) (going : me.cx.stop = false)
    (more : w.done = false)
    : WorkerStep env backend w me { w with cursor := w.cursor + 1 }
        { me with pc := .scanChunk w.cursor (backend.chunk w.cursor) }
  | noChunk {w me} (at_ : me.pc = .loop) (ended : me.cx.stop = true ∨ w.done = true)
    : WorkerStep env backend w me w { me with pc := .returned }
  | visit {w me idx entry rest} (at_ : me.pc = .scanChunk idx (entry :: rest))
    (going : me.cx.stop = false)
    : WorkerStep env backend w me
        { w with
            out := w.out ++ (visitEntry env me.cx entry).2
            limited := w.limited || (visitEntry env me.cx entry).1.stop }
        { me with pc := .scanChunk idx rest, cx := (visitEntry env me.cx entry).1 }
  | chunkFailed {w me idx rest} (at_ : me.pc = .scanChunk idx rest)
    (fails : backend.mayFail idx)
    : WorkerStep env backend w me { w with failed := true } { me with pc := .setDone true }
  | chunkStopped {w me idx rest} (at_ : me.pc = .scanChunk idx rest)
    (stopped : me.cx.stop = true)
    : WorkerStep env backend w me w { me with pc := .setDone false }
  | chunkScanned {w me idx} (at_ : me.pc = .scanChunk idx []) (going : me.cx.stop = false)
    (done : Bool) (finishes : backend.mayFinish idx done)
    : WorkerStep env backend w me
        { w with reported := if done then w.reported ++ [idx] else w.reported }
        { me with
            scanned := me.scanned ++ [idx]
            pc := if done then .setDone false else .loop }
  | setDone {w me error} (at_ : me.pc = .setDone error)
    : WorkerStep env backend w me { w with done := true, error := w.error || error }
        { me with pc := .returned }

/-- Start worker `i`. -/
def Pool.launch (s : Pool) (i : Nat) : Nat → Worker :=
  Function.update s.workers i { s.workers i with pc := .init }

/-- The counters merged into `*st`, worker by worker. -/
def Pool.merged (s : Pool) : LfuStats :=
  (List.range s.nthreads).foldl (fun acc i => lfuStatsMerge acc (s.workers i).cx.st) s.st

/-- What a step says of the threads: that the `pthread_create` of worker `i` succeeded, that
it failed, or nothing.
-/
inductive PoolEvent
  | created (i : Nat)
  | createFailed (i : Nat)
  | silent
deriving DecidableEq

/-- One step of `lfu_scan` or of one of its workers. A single worker runs in the calling
thread, which then has nothing to do until it returns.
-/
inductive PoolStep (env : Platform) (backend : Backend) : Pool → PoolEvent → Pool → Prop
  | noMemory {s : Pool} (at_ : s.main = .start)
    : PoolStep env backend s .silent
        { s with w := { s.w with failed := true }, main := .returned 1 }
  | runSingle {s : Pool} (at_ : s.main = .start) (single : s.nthreads = 1)
    : PoolStep env backend s .silent { s with workers := s.launch 0, main := .join }
  | runSeveral {s : Pool} (at_ : s.main = .start) (several : s.nthreads ≠ 1)
    : PoolStep env backend s .silent { s with main := .create 0 }
  | create {s : Pool} {i : Nat} (at_ : s.main = .create i) (more : i < s.nthreads)
    : PoolStep env backend s (.created i)
        { s with workers := s.launch i, main := .create (i + 1) }
  | createFailed {s : Pool} {i : Nat} (at_ : s.main = .create i) (more : i < s.nthreads)
    : PoolStep env backend s (.createFailed i) { s with nthreads := i, main := .join }
  | created {s : Pool} {i : Nat} (at_ : s.main = .create i) (all : s.nthreads ≤ i)
    : PoolStep env backend s .silent { s with main := .join }
  | join {s : Pool} (at_ : s.main = .join)
    (finished : ∀ i < s.nthreads, (s.workers i).pc = .returned)
    : PoolStep env backend s .silent
        { s with st := s.merged, main := .returned (if s.w.error then 1 else 0) }
  | worker {s : Pool} (i : Nat) {w : LfuWork} {me : Worker}
    (step : WorkerStep env backend s.w (s.workers i) w me)
    : PoolStep env backend s .silent { s with w, workers := Function.update s.workers i me }

end LfuScan.Core
