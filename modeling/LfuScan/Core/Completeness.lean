import LfuScan.Core.Coverage
import LfuScan.Foundations.CString

/-! The two results about a scan as a whole: nothing is scanned twice or missed, whatever
the interleaving, and a zero result means a complete scan if any worker was started at all.
-/

namespace LfuScan.Core

open LfuScan.Lustre LfuScan.Filter LfuScan.Foundations

variable {env : Platform} {backend : Backend} {base : LfuCtx}

/-- Once `lfu_scan` is back, no worker is inside a chunk. -/
theorem Covering.held_eq_scanned {s : Pool} {rc : Int} (inv : Covering env backend base s)
    (returned : s.main = .returned rc) (i : Nat)
    : (s.workers i).held = (s.workers i).scanned := by
  rcases inv.quiet rc returned i with unborn | finished
  · simp [Worker.held, unborn]
  · simp [Worker.held, finished]

/-- Zero is returned only if nothing failed. -/
theorem Covering.unfailed_of_zero {s : Pool} (inv : Covering env backend base s)
    (returned : s.main = .returned 0)
    : s.w.failed = false := by
  have noError : s.w.error = false := by
    rcases inv.result 0 returned with ⟨one, _⟩ | ⟨code, _⟩
    · cases one
    · by_contra error
      simp [error] at code
  by_contra failed
  rcases inv.failNoted (by simpa using failed) with error | ⟨i, setting⟩ | noMemory
  · simp [noError] at error
  · rcases inv.quiet 0 returned i with unborn | finished
    · simp [unborn] at setting
    · simp [finished] at setting
  · simp [returned] at noMemory

/-- With no worker started, nothing is scanned. -/
theorem Covering.scanned_nil {s : Pool} {rc : Int} (inv : Covering env backend base s)
    (returned : s.main = .returned rc) {i : Nat} (beyond : s.nthreads ≤ i)
    : (s.workers i).scanned = [] := by
  have unborn : (s.workers i).pc = .unborn := by
    by_contra born
    have started := inv.started i born
    simp only [Pool.launched, returned] at started
    omega
  have placed := (inv.workers i).placed
  unfold Worker.Placed at placed
  rw [unborn] at placed
  exact placed.2

/-- The merged counters are those of all chunks handed out. -/
theorem Covering.total {s : Pool} {rc : Int} (inv : Covering env backend base s)
    (returned : s.main = .returned rc) (noFailure : s.w.failed = false)
    (noLimit : s.w.limited = false)
    : s.st = ∑ idx ∈ Finset.range s.w.cursor, chunkStats env backend base idx := by
  have merged : s.st = ∑ i ∈ Finset.range s.nthreads, (s.workers i).cx.st := by
    rcases inv.result rc returned with ⟨_, failed⟩ | ⟨_, _, merged⟩
    · simp [noFailure] at failed
    · exact merged
  have counted (i : Nat)
      : (s.workers i).cx.st
        = ((s.workers i).held.map (chunkStats env backend base)).sum := by
    have counted := (inv.workers i).counted noFailure noLimit
    rcases inv.quiet rc returned i with unborn | finished
    · simpa [Worker.pending, unborn] using counted
    · simpa [Worker.pending, finished] using counted
  have started (i : Nat) (holds : (s.workers i).held ≠ []) : i ∈ Finset.range s.nthreads := by
    rw [inv.held_eq_scanned returned] at holds
    by_contra beyond
    exact holds (inv.scanned_nil returned (by simpa using beyond))
  rw [merged, ← inv.dispatched.sum_held (inv.covered noFailure noLimit) _ started]
  exact Finset.sum_congr rfl fun i _ => counted i

/-- Beyond a reported end there is nothing to count. -/
theorem sum_chunkStats_of_end (sound : backend.DoneSound) {last bound : Nat}
    (reported : backend.mayFinish last true) (beyond : last < bound)
    : ∑ idx ∈ Finset.range bound, chunkStats env backend base idx
      = ∑ idx ∈ Finset.range (last + 1), chunkStats env backend base idx := by
  refine Finset.eventually_constant_sum (fun idx later => ?_) beyond
  rw [chunkStats, sound last reported idx later]
  rfl

theorem exists_least {reported : List Nat} (some_ : reported ≠ [])
    : ∃ last ∈ reported, ∀ other ∈ reported, last ≤ other := by
  refine ⟨reported.min some_, List.min_mem some_, fun other member => ?_⟩
  exact List.min_le_of_mem member

/-- A scan asked for one worker has exactly one. -/
theorem single_nthreads {o : LfuOpts} {ops : LfuTargetOps} {now : Int} {trace : List PoolEvent}
    {s : Pool} (run : Run (PoolStep env backend) (Pool.begin o ops now 1) trace s)
    : s.nthreads = 1 := by
  have single : s.nthreads = 1 ∧ ∀ i, s.main ≠ .create i := by
    refine run.invariant (fun s => s.nthreads = 1 ∧ ∀ i, s.main ≠ .create i)
      ⟨rfl, by simp [Pool.begin]⟩ (fun s _ next inv step => ?_)
    obtain ⟨one, notCreating⟩ := inv
    cases step with
    | runSeveral at_ several => exact absurd one several
    | create at_ more => exact absurd at_ (notCreating _)
    | createFailed at_ more => exact absurd at_ (notCreating _)
    | created at_ all => exact absurd at_ (notCreating _)
    | worker i step => exact ⟨one, notCreating⟩
    | _ => exact ⟨one, by simp⟩
  exact single.1

/-- Whatever the number of running workers and the interleaving: up to the smallest chunk
that reported the end every chunk was scanned by exactly one worker, no chunk was scanned
twice, and the merged counters are those of a scan with a single worker.
-/
theorem scan_exactly_once {o : LfuOpts} {ops : LfuTargetOps} {now : Int} {threads : Nat}
    {trace : List PoolEvent} {s : Pool} {rc : Int} (sound : backend.DoneSound)
    (run : Run (PoolStep env backend) (Pool.begin o ops now threads) trace s)
    (returned : s.main = .returned rc) (running : 0 < s.nthreads)
    (noFailure : s.w.failed = false) (noLimit : s.w.limited = false)
    : rc = 0
      ∧ (∃ last ∈ s.w.reported, (∀ other ∈ s.w.reported, last ≤ other)
          ∧ ∀ idx ≤ last, ∃! i, idx ∈ (s.workers i).scanned)
      ∧ (∀ i, (s.workers i).scanned.Nodup)
      ∧ (∀ i j idx, idx ∈ (s.workers i).scanned → idx ∈ (s.workers j).scanned → i = j)
      ∧ ∀ singleTrace single singleRc,
          Run (PoolStep env backend) (Pool.begin o ops now 1) singleTrace single →
          single.main = .returned singleRc → single.w.failed = false →
          single.w.limited = false → s.st = single.st := by
  have inv := Covering.run run
  have apart (i j idx : Nat) (left : idx ∈ (s.workers i).scanned)
      (right : idx ∈ (s.workers j).scanned) : i = j := by
    rw [← inv.held_eq_scanned returned] at left right
    exact inv.dispatched.apart i j idx left right
  obtain ⟨ended, scanned⟩ := inv.complete returned noFailure noLimit running
  obtain ⟨last, reported, least⟩ := exists_least ended
  obtain ⟨finishes, owner, done⟩ := inv.reports last reported
  have below : last < s.w.cursor :=
    inv.dispatched.bound owner last (by rwa [inv.held_eq_scanned returned])
  refine ⟨?_, ⟨last, reported, least, fun idx upTo => ?_⟩, fun i => ?_, apart, ?_⟩
  · rcases inv.result rc returned with ⟨_, failed⟩ | ⟨code, _⟩
    · simp [noFailure] at failed
    · have noError : s.w.error = false := by grind [inv.errorFailed]
      simpa [noError] using code
  · obtain ⟨i, here⟩ := scanned idx (by omega)
    exact ⟨i, here, fun j there => apart j i idx there here⟩
  · rw [← inv.held_eq_scanned returned]
    exact inv.dispatched.nodup i
  · intro singleTrace single singleRc singleRun singleReturned singleNoFailure singleNoLimit
    have alone := Covering.run singleRun
    obtain ⟨aloneEnded, _⟩ :=
      alone.complete singleReturned singleNoFailure singleNoLimit
        (by simp [single_nthreads singleRun])
    obtain ⟨aloneLast, aloneReported, _⟩ := exists_least aloneEnded
    obtain ⟨aloneFinishes, aloneOwner, aloneDone⟩ := alone.reports aloneLast aloneReported
    have aloneBelow : aloneLast < single.w.cursor :=
      alone.dispatched.bound aloneOwner aloneLast
        (by rwa [alone.held_eq_scanned singleReturned])
    -- Both sums reach past both ends, so both are the sum over the larger of the two ranges.
    rw [inv.total returned noFailure noLimit,
      alone.total singleReturned singleNoFailure singleNoLimit,
      sum_chunkStats_of_end sound finishes below,
      sum_chunkStats_of_end sound aloneFinishes aloneBelow,
      ← sum_chunkStats_of_end sound finishes (show last < last + aloneLast + 1 by omega),
      ← sum_chunkStats_of_end sound aloneFinishes
        (show aloneLast < last + aloneLast + 1 by omega)]

/-- An entry that is only counted. -/
def counted : Visit := { own := { seen := 1 } }

/-- Two chunks of one entry each; the second is the last. -/
def twoChunks : Backend where
  chunk idx := if idx < 2 then [counted] else []
  mayFinish idx done := done = decide (1 ≤ idx)
  mayFail _ := False

theorem twoChunks_sound : twoChunks.DoneSound := by
  intro idx finishes later beyond
  have last : 1 ≤ idx := of_decide_eq_true finishes.symm
  exact if_neg (by omega)

def inodes : LfuTargetOps := { idLabel := cstr "ino" }

def unseen : LfuCtx := workerCtx {} inodes 0

/-- The first two workers of a scan that starts no others. -/
def two (first second : Worker) : Nat → Worker
  | 0 => first
  | 1 => second
  | _ => { cx := unseen }

theorem update_two_first (first second me : Worker)
    : Function.update (two first second) 0 me = two me second := by
  funext i
  match i with
  | 0 | 1 | _ + 2 => rfl

theorem update_two_second (first second me : Worker)
    : Function.update (two first second) 1 me = two first me := by
  funext i
  match i with
  | 0 | 1 | _ + 2 => rfl

/-- A scan by at most two workers. -/
def scanBy (main : MainPc) (w : LfuWork) (nthreads : Nat) (first second : Worker) : Pool :=
  { w, nthreads, workers := two first second, main }

def unstarted (threads : Nat) : Pool :=
  scanBy .start {} threads { cx := unseen } { cx := unseen }

theorem begin_eq_unstarted (threads : Nat)
    : Pool.begin {} inodes 0 threads = unstarted threads := by
  have unborn : (fun _ => { cx := unseen } : Nat → Worker)
      = two { cx := unseen } { cx := unseen } := by
    funext i
    match i with
    | 0 | 1 | _ + 2 => rfl
  unfold unstarted scanBy
  rw [← unborn]
  rfl

section ScanBy

variable {main : MainPc} {w w' : LfuWork} {n : Nat} {first second me : Worker}

theorem scanBy_launch_first
    : (scanBy main w n first second).launch 0 = two { first with pc := .init } second :=
  update_two_first _ _ _

theorem scanBy_launch_second
    : (scanBy main w n first second).launch 1 = two first { second with pc := .init } :=
  update_two_second _ _ _

theorem scanBy_first (step : WorkerStep env backend w first w' me)
    : PoolStep env backend (scanBy main w n first second) .silent
        (scanBy main w' n me second) := by
  have taken := PoolStep.worker (s := scanBy main w n first second) 0 step
  simp only [scanBy, update_two_first] at taken
  exact taken

theorem scanBy_second (step : WorkerStep env backend w second w' me)
    : PoolStep env backend (scanBy main w n first second) .silent
        (scanBy main w' n first me) := by
  have taken := PoolStep.worker (s := scanBy main w n first second) 1 step
  simp only [scanBy, update_two_second] at taken
  exact taken

theorem scanBy_single
    : PoolStep env backend (scanBy .start w 1 first second) .silent
        (scanBy .join w 1 { first with pc := .init } second) := by
  have taken : PoolStep env backend (scanBy .start w 1 first second) .silent _ :=
    .runSingle rfl rfl
  rw [scanBy_launch_first] at taken
  exact taken

theorem scanBy_create_first (more : 0 < n)
    : PoolStep env backend (scanBy (.create 0) w n first second) (.created 0)
        (scanBy (.create 1) w n { first with pc := .init } second) := by
  have taken : PoolStep env backend (scanBy (.create 0) w n first second) (.created 0) _ :=
    .create rfl more
  rw [scanBy_launch_first] at taken
  exact taken

theorem scanBy_create_second (more : 1 < n)
    : PoolStep env backend (scanBy (.create 1) w n first second) (.created 1)
        (scanBy (.create 2) w n first { second with pc := .init }) := by
  have taken : PoolStep env backend (scanBy (.create 1) w n first second) (.created 1) _ :=
    .create rfl more
  rw [scanBy_launch_second] at taken
  exact taken

end ScanBy

/-- The context after such an entry. -/
def LfuCtx.seen (cx : LfuCtx) : LfuCtx := { cx with st := lfuStatsMerge cx.st { seen := 1 } }

theorem visit_counted (w : LfuWork) (cx : LfuCtx) (going : cx.stop = false) (idx : Nat)
    (rest : List Visit) (scanned : List Nat)
    : WorkerStep env backend w { pc := .scanChunk idx (counted :: rest), cx, scanned } w
        { pc := .scanChunk idx rest, cx := cx.seen, scanned } := by
  have step
      : WorkerStep env backend w { pc := .scanChunk idx (counted :: rest), cx, scanned } _ _ :=
    .visit rfl going
  simpa [visitEntry, counted, LfuCtx.seen, going] using step

/-- Two workers take a chunk each, and the one with the last chunk finishes first. -/
theorem twoWorkers_run
    : ∃ trace s, Run (PoolStep exactNames twoChunks) (Pool.begin {} inodes 0 2) trace s
        ∧ s.main = .returned 0 ∧ s.nthreads = 2 ∧ .created 0 ∈ trace ∧ s.w.failed = false
        ∧ s.w.limited = false ∧ s.st.seen = 2 := by
  rw [begin_eq_unstarted]
  have run : Run (PoolStep exactNames twoChunks) (unstarted 2) [] (unstarted 2) := .nil
  have run := run.snoc (.runSeveral rfl (by decide))
  have run := run.snoc (scanBy_create_first (by decide))
  have run := run.snoc (scanBy_create_second (by decide))
  have run := run.snoc (.created rfl (by decide))
  have run
      : Run _ _ _
          (scanBy .join { cursor := 1 } 2
            { pc := .scanChunk 0 [counted], cx := unseen }
            { pc := .init, cx := unseen }) :=
    (run.snoc (scanBy_first (.initialised rfl))).snoc (scanBy_first (.nextChunk rfl rfl rfl))
  have run
      : Run _ _ _
          (scanBy .join { cursor := 2 } 2
            { pc := .scanChunk 0 [counted], cx := unseen }
            { pc := .scanChunk 1 [counted], cx := unseen }) :=
    (run.snoc (scanBy_second (.initialised rfl))).snoc
      (scanBy_second (.nextChunk rfl rfl rfl))
  have run
      : Run _ _ _
          (scanBy .join { cursor := 2 } 2
            { pc := .scanChunk 0 [counted], cx := unseen }
            { pc := .scanChunk 1 [], cx := unseen.seen }) :=
    run.snoc (scanBy_second (visit_counted _ _ rfl _ _ _))
  have run
      : Run _ _ _
          (scanBy .join { cursor := 2, done := true, reported := [1] } 2
            { pc := .scanChunk 0 [counted], cx := unseen }
            { pc := .returned, cx := unseen.seen, scanned := [1] }) :=
    (run.snoc (scanBy_second (.chunkScanned rfl rfl true (by rfl)))).snoc
      (scanBy_second (.setDone rfl))
  have run
      : Run _ _ _
          (scanBy .join { cursor := 2, done := true, reported := [1] } 2
            { pc := .scanChunk 0 [], cx := unseen.seen }
            { pc := .returned, cx := unseen.seen, scanned := [1] }) :=
    run.snoc (scanBy_first (visit_counted _ _ rfl _ _ _))
  have run
      : Run _ _ _
          (scanBy .join { cursor := 2, done := true, reported := [1] } 2
            { pc := .returned, cx := unseen.seen, scanned := [0] }
            { pc := .returned, cx := unseen.seen, scanned := [1] }) :=
    (run.snoc (scanBy_first (.chunkScanned rfl rfl false (by rfl)))).snoc
      (scanBy_first (.noChunk rfl (.inr rfl)))
  have run := run.snoc (.join rfl (fun i below => by
    match i, below with
    | 0, _ | 1, _ => rfl))
  exact ⟨_, _, run, rfl, rfl, by decide, rfl, rfl, rfl⟩

/-- The same chunks, scanned one after the other. -/
theorem oneWorker_run
    : ∃ trace s, Run (PoolStep exactNames twoChunks) (Pool.begin {} inodes 0 1) trace s
        ∧ s.main = .returned 0 ∧ s.w.failed = false ∧ s.w.limited = false := by
  rw [begin_eq_unstarted]
  have run : Run (PoolStep exactNames twoChunks) (unstarted 1) [] (unstarted 1) := .nil
  have run
      : Run _ _ _
          (scanBy .join { cursor := 1 } 1
            { pc := .scanChunk 0 [counted], cx := unseen }
            { cx := unseen }) :=
    ((run.snoc scanBy_single).snoc (scanBy_first (.initialised rfl))).snoc
      (scanBy_first (.nextChunk rfl rfl rfl))
  have run
      : Run _ _ _
          (scanBy .join { cursor := 1 } 1
            { pc := .scanChunk 0 [], cx := unseen.seen } { cx := unseen }) :=
    run.snoc (scanBy_first (visit_counted _ _ rfl _ _ _))
  have run
      : Run _ _ _
          (scanBy .join { cursor := 2 } 1
            { pc := .scanChunk 1 [counted], cx := unseen.seen, scanned := [0] }
            { cx := unseen }) :=
    (run.snoc (scanBy_first (.chunkScanned rfl rfl false (by rfl)))).snoc
      (scanBy_first (.nextChunk rfl rfl rfl))
  have run
      : Run _ _ _
          (scanBy .join { cursor := 2 } 1
            { pc := .scanChunk 1 []
              cx := unseen.seen.seen
              scanned := [0] }
            { cx := unseen }) :=
    run.snoc (scanBy_first (visit_counted _ _ rfl _ _ _))
  have run := run.snoc (scanBy_first (.chunkScanned rfl rfl true (by rfl)))
  have run := run.snoc (scanBy_first (.setDone rfl))
  have run := run.snoc (.join rfl (fun i below => by
    match i, below with
    | 0, _ => rfl))
  exact ⟨_, _, run, rfl, rfl, rfl⟩

theorem scan_exactly_once_twoWorkers
    : ∃ trace s singleTrace single,
        Run (PoolStep exactNames twoChunks) (Pool.begin {} inodes 0 2) trace s
        ∧ Run (PoolStep exactNames twoChunks) (Pool.begin {} inodes 0 1) singleTrace single
        ∧ s.nthreads = 2 ∧ s.st.seen = 2 ∧ s.st = single.st := by
  obtain ⟨trace, s, run, returned, two, _, noFailure, noLimit, seen⟩ := twoWorkers_run
  obtain ⟨singleTrace, single, singleRun, singleReturned, unfailed, unlimited⟩ :=
    oneWorker_run
  obtain ⟨_, _, _, _, same⟩ :=
    scan_exactly_once twoChunks_sound run returned (by omega) noFailure noLimit
  exact ⟨trace, s, singleTrace, single, run, singleRun, two, seen,
    same _ _ _ singleRun singleReturned unfailed unlimited⟩

/-- What the outcomes of `pthread_create` say of the local `nthreads`: once `lfu_scan` waits
for its workers it has some exactly if it runs the single one itself, or the first create
has succeeded.
-/
def Creating (threads : Nat) (trace : List PoolEvent) (s : Pool) : Prop :=
  match s.main with
  | .start => s.nthreads = threads ∧ .created 0 ∉ trace
  | .create i =>
      s.nthreads = threads ∧ threads ≠ 1 ∧ i ≤ threads ∧ (.created 0 ∈ trace ↔ 0 < i)
  | .join => 0 < s.nthreads ↔ threads = 1 ∨ .created 0 ∈ trace
  | .returned rc => rc = 0 → (0 < s.nthreads ↔ threads = 1 ∨ .created 0 ∈ trace)

theorem Creating.step {threads : Nat} {trace : List PoolEvent} {event : PoolEvent}
    {s next : Pool} (inv : Creating threads trace s) (step : PoolStep env backend s event next)
    : Creating threads (trace ++ [event]) next := by
  cases step with
  | noMemory at_ => simp [Creating]
  | runSingle at_ single =>
      simp only [Creating, at_] at inv
      simp only [Creating]
      omega
  | runSeveral at_ several =>
      simp only [Creating, at_] at inv
      simp only [Creating, List.mem_append, List.mem_singleton, reduceCtorEq, or_false]
      exact ⟨inv.1, inv.1 ▸ several, Nat.zero_le _, by simp [inv.2]⟩
  | @create i at_ more =>
      simp only [Creating, at_] at inv
      obtain ⟨asked, several, _, first⟩ := inv
      refine ⟨asked, several, by omega, ?_⟩
      simp only [List.mem_append, List.mem_singleton, first, PoolEvent.created.injEq]
      omega
  | createFailed at_ more =>
      simp only [Creating, at_] at inv
      obtain ⟨asked, several, _, first⟩ := inv
      simp [Creating, first, several]
  | @created i at_ all =>
      simp only [Creating, at_] at inv
      obtain ⟨asked, several, upTo, first⟩ := inv
      have done : i = threads := by omega
      simp [Creating, first, several, asked, done]
  | join at_ finished =>
      simp only [Creating, at_] at inv
      simpa [Creating] using fun _ => inv
  | worker i step => simpa [Creating] using inv

theorem Creating.run {o : LfuOpts} {ops : LfuTargetOps} {now : Int} {threads : Nat}
    {trace : List PoolEvent} {s : Pool}
    (run : Run (PoolStep env backend) (Pool.begin o ops now threads) trace s)
    : Creating threads trace s :=
  run.traceInvariant (Creating threads) ⟨rfl, by simp⟩ (fun _ _ _ _ inv step => inv.step step)

/-- A scan that returned zero and was not stopped by the limit has scanned every chunk up
to the end of the table exactly if it was asked for a single worker or its first
`pthread_create` succeeded.
-/
theorem zero_complete_iff {o : LfuOpts} {ops : LfuTargetOps} {now : Int} {threads : Nat}
    {trace : List PoolEvent} {s : Pool} (sound : backend.DoneSound)
    (run : Run (PoolStep env backend) (Pool.begin o ops now threads) trace s)
    (returned : s.main = .returned 0) (noLimit : s.w.limited = false)
    : (∃ last, (∀ later > last, backend.chunk later = [])
        ∧ ∀ idx ≤ last, ∃ i, idx ∈ (s.workers i).scanned)
      ↔ threads = 1 ∨ .created 0 ∈ trace := by
  have inv := Covering.run run
  have creating := Creating.run run
  simp only [Creating, returned, true_implies] at creating
  rw [← creating]
  constructor
  · rintro ⟨last, _, scanned⟩
    obtain ⟨i, here⟩ := scanned 0 (Nat.zero_le last)
    by_contra none_
    rw [inv.scanned_nil returned (by omega)] at here
    cases here
  · intro running
    obtain ⟨ended, scanned⟩ :=
      inv.complete returned (inv.unfailed_of_zero returned) noLimit running
    obtain ⟨last, reported⟩ := List.exists_mem_of_ne_nil _ ended
    obtain ⟨finishes, owner, done⟩ := inv.reports last reported
    have below : last < s.w.cursor :=
      inv.dispatched.bound owner last (by rwa [inv.held_eq_scanned returned])
    exact ⟨last, sound last finishes, fun idx upTo => scanned idx (by omega)⟩

theorem zero_complete_twoWorkers
    : ∃ trace s, Run (PoolStep exactNames twoChunks) (Pool.begin {} inodes 0 2) trace s
        ∧ s.main = .returned 0 ∧ .created 0 ∈ trace
        ∧ ∃ last, (∀ later > last, twoChunks.chunk later = [])
            ∧ ∀ idx ≤ last, ∃ i, idx ∈ (s.workers i).scanned := by
  obtain ⟨trace, s, run, returned, _, first, _, noLimit, _⟩ := twoWorkers_run
  exact ⟨trace, s, run, returned, first,
    (zero_complete_iff twoChunks_sound run returned noLimit).mpr (.inr first)⟩

/-- The first `pthread_create` fails: nobody scans anything, and the result is zero. -/
theorem zero_without_workers
    : ∃ trace s, Run (PoolStep exactNames twoChunks) (Pool.begin {} inodes 0 2) trace s
        ∧ .createFailed 0 ∈ trace ∧ s.main = .returned 0 ∧ s.w.limited = false
        ∧ twoChunks.chunk 0 ≠ [] ∧ ∀ i, (s.workers i).scanned = [] := by
  have run
      : Run (PoolStep exactNames twoChunks) (Pool.begin {} inodes 0 2) []
          (Pool.begin {} inodes 0 2) :=
    .nil
  have run := run.snoc (.runSeveral rfl (by decide))
  have run := run.snoc (.createFailed rfl (by decide))
  have run := run.snoc (.join rfl (fun i below => absurd below (Nat.not_lt_zero i)))
  exact ⟨_, _, run, by decide, rfl, rfl, by simp [twoChunks], fun _ => rfl⟩

end LfuScan.Core
