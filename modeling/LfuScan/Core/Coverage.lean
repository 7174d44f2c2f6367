import LfuScan.Core.Pool
import LfuScan.Foundations.Dispatch

/-! What a parallel scan covers, and what its result says about that. -/

namespace LfuScan.Core

open LfuScan.Lustre LfuScan.Filter LfuScan.Foundations

variable {env : Platform} {backend : Backend} {base : LfuCtx}

-----------------------------------------------------------------------------------------
-- Counters
-----------------------------------------------------------------------------------------

/-- What one entry adds to the counters. -/
def visitStats (env : Platform) (base : LfuCtx) (entry : Visit) : LfuStats :=
  (visitEntry env base entry).1.st

/-- What one chunk adds to the counters. -/
def chunkStats (env : Platform) (backend : Backend) (base : LfuCtx) (idx : Nat) : LfuStats :=
  ((backend.chunk idx).map (visitStats env base)).sum

theorem visitEntry_counts (env : Platform) {base : LfuCtx} (fresh : base.base = base)
    (entry : Visit)
    : AddsCounts (fun cx => (visitEntry env cx entry).1) base (visitStats env base entry) := by
  have own
      : AddsCounts (fun cx => { cx with st := lfuStatsMerge cx.st entry.own }) base entry.own :=
    fun _ same => ⟨same, rfl⟩
  have some_counts
      : ∃ counts, AddsCounts (fun cx => (visitEntry env cx entry).1) base counts := by
    cases object : entry.object with
    | none => exact ⟨_, own.congr fun cx _ => by simp only [visitEntry, object]⟩
    | some parts =>
        obtain ⟨rec, haveLma, eas⟩ := parts
        obtain ⟨_, prefiltered⟩ := lfuPrefilter_counts base rec
        obtain ⟨_, judged⟩ := lfuObject_counts env base rec haveLma eas
        have survives_base (cx : LfuCtx) (same : cx.base = base)
            : (lfuPrefilter cx rec).1 = (lfuPrefilter base rec).1 := by
          rw [lfuPrefilter_survives, lfuPrefilter_survives, ← same]
          rfl
        have reached := fun cx same => survives_base _ (own cx same).1
        cases survives : (lfuPrefilter base rec).1 with
        | true =>
            refine ⟨_, ((own.comp prefiltered).comp judged).congr fun cx same => ?_⟩
            simp only [visitEntry, visitObject, object, reached cx same, survives, if_true]
        | false =>
            refine ⟨_, (own.comp prefiltered).congr fun cx same => ?_⟩
            simp only [visitEntry, visitObject, object, reached cx same, survives,
              Bool.false_eq_true, if_false]
  obtain ⟨counts, adds⟩ := some_counts
  have empty : base.st = 0 := by rw [← fresh]; rfl
  have value : visitStats env base entry = counts := by
    rw [visitStats, (adds base fresh).2, empty, zero_add]
  rwa [value]

theorem visitEntry_base (env : Platform) (cx : LfuCtx) (entry : Visit)
    : (visitEntry env cx entry).1.base = cx.base :=
  (visitEntry_counts env (rfl : cx.base.base = cx.base) entry cx rfl).1

/-- Without a limit no entry stops the scan. -/
theorem visitEntry_going (env : Platform) {cx : LfuCtx} (noLimit : cx.o.limit = 0)
    (entry : Visit)
    : (visitEntry env cx entry).1.stop = cx.stop ∧ (visitEntry env cx entry).1.o = cx.o := by
  have o : (visitEntry env cx entry).1.base.o = cx.base.o :=
    congrArg LfuCtx.o (visitEntry_base env cx entry)
  refine ⟨?_, o⟩
  simp only [visitEntry]
  split
  · rfl
  · rename_i rec haveLma eas _
    obtain ⟨stop, o⟩ := lfuPrefilter_going { cx with st := lfuStatsMerge cx.st entry.own } rec
    simp only [visitObject]
    split
    · exact (lfuObject_going env _ rec eas haveLma (by rw [o]; exact noLimit)).trans stop
    · exact stop

/-- Without a limit the next entry finds what a loop over entries relies on as it was. -/
theorem visitEntry_kept (env : Platform) {cx : LfuCtx} (noLimit : cx.o.limit = 0)
    (going : cx.stop = false) (entry : Visit)
    : (visitEntry env cx entry).1.o.limit = 0 ∧ (visitEntry env cx entry).1.stop = false
      ∧ (visitEntry env cx entry).1.needs = cx.needs := by
  obtain ⟨stop, o⟩ := visitEntry_going env noLimit entry
  refine ⟨by rw [o]; exact noLimit, stop.trans going, ?_⟩
  exact (congrArg LfuCtx.needs (visitEntry_base env cx entry) :)

theorem visitEntries_going (env : Platform) {cx : LfuCtx} (noLimit : cx.o.limit = 0)
    (going : cx.stop = false) (entries : List Visit)
    : (visitEntries env cx entries).1.stop = false
      ∧ (visitEntries env cx entries).1.o = cx.o := by
  induction entries generalizing cx with
  | nil => exact ⟨going, rfl⟩
  | cons entry rest ih =>
      obtain ⟨stop, o⟩ := visitEntry_going env noLimit entry
      obtain ⟨restStop, restO⟩ := ih (by rw [o]; exact noLimit) (stop.trans going)
      simp only [visitEntries, going, Bool.false_eq_true, if_false]
      exact ⟨restStop, restO.trans o⟩

theorem visitEntries_stopped (env : Platform) {cx : LfuCtx} (stopped : cx.stop = true)
    (entries : List Visit)
    : visitEntries env cx entries = (cx, []) := by
  cases entries with
  | nil => rfl
  | cons entry rest => rw [visitEntries, if_pos stopped]

/-- Two loops in a row are one loop. -/
theorem visitEntries_append (env : Platform) (cx : LfuCtx) (entries more : List Visit)
    : visitEntries env cx (entries ++ more)
      = ((visitEntries env (visitEntries env cx entries).1 more).1,
          (visitEntries env cx entries).2
            ++ (visitEntries env (visitEntries env cx entries).1 more).2) := by
  induction entries generalizing cx with
  | nil => rfl
  | cons entry rest ih =>
      by_cases stopped : cx.stop = true
      · simp only [visitEntries_stopped env stopped, List.append_nil]
      · simp only [List.cons_append, visitEntries, stopped, Bool.false_eq_true, if_false, ih,
          List.append_assoc]

-----------------------------------------------------------------------------------------
-- One worker
-----------------------------------------------------------------------------------------

/-- The chunks a worker has scanned, and the one it is in. -/
def Worker.held (me : Worker) : List Nat :=
  match me.pc with
  | .scanChunk idx _ => me.scanned ++ [idx]
  | _ => me.scanned

/-- What the rest of its chunk will add to a worker's counters. -/
def Worker.pending (env : Platform) (base : LfuCtx) (me : Worker) : LfuStats :=
  match me.pc with
  | .scanChunk _ rest => (rest.map (visitStats env base)).sum
  | _ => 0

/-- What is known at each point of `lfu_worker_main`. -/
def Worker.Placed (base : LfuCtx) (w : LfuWork) (me : Worker) : Prop :=
  match me.pc with
  | .unborn | .init => me.cx = base ∧ me.scanned = []
  | .loop => me.cx.stop = false
  | .scanChunk _ _ => True
  | .setDone true => w.failed = true
  | .setDone false => w.limited = true ∨ w.reported ≠ []
  | .returned => w.done = true

/-- What a worker knows about itself and about the shared state. -/
structure WorkerOk (env : Platform) (backend : Backend) (base : LfuCtx) (w : LfuWork)
    (me : Worker)
    : Prop where
  placed : me.Placed base w
  stopNoted : me.cx.stop = true → w.limited = true
  finished : ∀ idx ∈ me.scanned, ∃ done, backend.mayFinish idx done
  fixed : me.cx.base = base
  counted : w.failed = false → w.limited = false →
    me.cx.st + me.pending env base = (me.held.map (chunkStats env backend base)).sum

/-- The shared state only ever gains: indices handed out, flags, reports. -/
structure LfuWork.Grows (w w' : LfuWork) : Prop where
  done : w.done = true → w'.done = true
  error : w.error = true → w'.error = true
  failed : w.failed = true → w'.failed = true
  limited : w.limited = true → w'.limited = true
  reported : w.reported ⊆ w'.reported

theorem WorkerStep.grows {w w' : LfuWork} {me me' : Worker}
    (step : WorkerStep env backend w me w' me')
    : w.Grows w' := by
  cases step with
  | chunkScanned at_ going done finishes =>
      refine ⟨id, id, id, id, ?_⟩
      cases done
      · exact List.Subset.refl _
      · exact List.subset_append_left _ _
  | _ => constructor <;> simp_all

theorem WorkerOk.grow {w w' : LfuWork} {me : Worker} (ok : WorkerOk env backend base w me)
    (grows : w.Grows w')
    : WorkerOk env backend base w' me where
  placed := by
    have placed := ok.placed
    unfold Worker.Placed at placed ⊢
    split at placed
    · exact placed
    · exact placed
    · exact placed
    · trivial
    · exact grows.failed placed
    · rcases placed with limited | reported
      · exact .inl (grows.limited limited)
      · exact .inr fun empty => reported (List.subset_nil.mp (empty ▸ grows.reported))
    · exact grows.done placed
  stopNoted stopped := grows.limited (ok.stopNoted stopped)
  finished := ok.finished
  fixed := ok.fixed
  counted noFailure noLimit :=
    ok.counted (by grind [grows.failed]) (by grind [grows.limited])

/-- A worker keeps what it holds, takes the index at the cursor, or gives its chunk up
because of a failure or the limit.
-/
theorem WorkerStep.held_cases {w w' : LfuWork} {me me' : Worker}
    (step : WorkerStep env backend w me w' me') (ok : WorkerOk env backend base w me)
    : (w'.cursor = w.cursor ∧ me'.held = me.held)
      ∨ (w'.cursor = w.cursor + 1 ∧ me'.held = me.held ++ [w.cursor])
      ∨ (w'.cursor = w.cursor ∧ me'.held.Sublist me.held
          ∧ (w'.failed = true ∨ w'.limited = true)) := by
  cases step with
  | nextChunk at_ going more => exact .inr (.inl ⟨rfl, by simp only [Worker.held, at_]⟩)
  | chunkFailed at_ fails =>
      refine .inr (.inr ⟨rfl, ?_, .inl rfl⟩)
      simp only [Worker.held, at_]
      exact List.sublist_append_left _ _
  | chunkStopped at_ stopped =>
      refine .inr (.inr ⟨rfl, ?_, .inr (ok.stopNoted stopped)⟩)
      simp only [Worker.held, at_]
      exact List.sublist_append_left _ _
  | chunkScanned at_ going done finishes =>
      refine .inl ⟨rfl, ?_⟩
      cases done <;> simp [Worker.held, at_]
  | _ => exact .inl ⟨rfl, by simp_all [Worker.held]⟩

/-- Each step of a worker leaves it in order. -/
theorem WorkerOk.step {w w' : LfuWork} {me me' : Worker} (fresh : base.base = base)
    (ok : WorkerOk env backend base w me) (step : WorkerStep env backend w me w' me')
    : WorkerOk env backend base w' me' := by
  have placed := ok.placed
  unfold Worker.Placed at placed
  cases step with
  | initialised at_ =>
      rw [at_] at placed
      exact {
        ok with
        placed := by
          change _ = false
          rw [placed.1, ← fresh]
          rfl
        counted := by simpa [Worker.pending, Worker.held, at_] using ok.counted
      }
  | initFailed at_ =>
      exact {
        ok with
        placed := rfl
        counted := fun noFailure => absurd noFailure (by simp)
      }
  | nextChunk at_ going more =>
      exact {
        ok with
        placed := trivial
        counted := fun noFailure noLimit => by
          have counted := ok.counted noFailure noLimit
          simp only [Worker.pending, Worker.held, at_, add_zero] at counted ⊢
          rw [counted, List.map_append, List.sum_append]
          simp [chunkStats]
      }
  | noChunk at_ ended =>
      rw [at_] at placed
      exact {
        ok with
        placed := by
          rcases ended with stopped | done
          · rw [placed] at stopped
            cases stopped
          · exact done
        counted := by simpa [Worker.pending, Worker.held, at_] using ok.counted
      }
  | visit at_ going =>
      obtain ⟨fixed, added⟩ := visitEntry_counts env fresh _ me.cx ok.fixed
      exact {
        placed := trivial
        stopNoted := fun stopped => by simpa using .inr stopped
        finished := ok.finished
        fixed
        counted := fun noFailure noLimit => by
          have counted := ok.counted noFailure (by grind)
          simp only [Worker.pending, Worker.held, at_, List.map_cons, List.sum_cons]
            at counted ⊢
          rw [added, add_assoc, counted]
      }
  | chunkFailed at_ fails =>
      exact {
        ok with
        placed := rfl
        counted := fun noFailure => absurd noFailure (by simp)
      }
  | chunkStopped at_ stopped =>
      have limited := ok.stopNoted stopped
      exact {
        ok with
        placed := .inl limited
        counted := fun _ noLimit => absurd limited (by simp [noLimit])
      }
  | chunkScanned at_ going done finishes =>
      exact {
        placed := by
          cases done
          · exact going
          · exact .inr (by simp)
        stopNoted := ok.stopNoted
        finished := fun other member => by
          rcases List.mem_append.mp member with old | new
          · exact ok.finished other old
          · rw [List.mem_singleton.mp new]
            exact ⟨done, finishes⟩
        fixed := ok.fixed
        counted := fun noFailure noLimit => by
          have counted := ok.counted noFailure noLimit
          cases done <;> simpa [Worker.pending, Worker.held, at_] using counted
      }
  | setDone at_ =>
      exact {
        ok with
        placed := rfl
        counted := by simpa [Worker.pending, Worker.held, at_] using ok.counted
      }

theorem WorkerOk.launch {w : LfuWork} {me : Worker} (ok : WorkerOk env backend base w me)
    (unborn : me.pc = .unborn)
    : WorkerOk env backend base w { me with pc := .init } where
  placed := by
    have placed := ok.placed
    unfold Worker.Placed at placed
    rw [unborn] at placed
    exact placed
  stopNoted := ok.stopNoted
  finished := ok.finished
  fixed := ok.fixed
  counted := by simpa [Worker.pending, Worker.held, unborn] using ok.counted

-- What one step can do to the flags, the reports and the worker's own history.

theorem WorkerStep.live {w w' : LfuWork} {me me' : Worker}
    (step : WorkerStep env backend w me w' me')
    : me.pc ≠ .unborn ∧ me.pc ≠ .returned := by
  cases step <;> simp_all

theorem WorkerStep.failed_cases {w w' : LfuWork} {me me' : Worker}
    (step : WorkerStep env backend w me w' me') (failed : w'.failed = true)
    : (w.failed = true ∧ (me.pc = .setDone true → w'.error = true))
      ∨ me'.pc = .setDone true := by
  cases step <;> simp_all

theorem WorkerStep.error_cases {w w' : LfuWork} {me me' : Worker}
    (step : WorkerStep env backend w me w' me') (ok : WorkerOk env backend base w me)
    (error : w'.error = true)
    : w.error = true ∨ w'.failed = true := by
  cases step with
  | @setDone code at_ =>
      cases code with
      | true =>
          have placed := ok.placed
          unfold Worker.Placed at placed
          rw [at_] at placed
          exact .inr placed
      | false => exact .inl (by simpa using error)
  | _ => exact .inl error

theorem WorkerStep.done_cases {w w' : LfuWork} {me me' : Worker}
    (step : WorkerStep env backend w me w' me') (ok : WorkerOk env backend base w me)
    (done : w'.done = true)
    : w.done = true ∨ w'.error = true ∨ w'.limited = true ∨ w'.reported ≠ [] := by
  cases step with
  | @setDone code at_ =>
      cases code with
      | true => exact .inr (.inl (by simp))
      | false =>
          have placed := ok.placed
          unfold Worker.Placed at placed
          rw [at_] at placed
          exact .inr (.inr placed)
  | _ => exact .inl done

theorem WorkerStep.reported_cases {w w' : LfuWork} {me me' : Worker}
    (step : WorkerStep env backend w me w' me') {idx : Nat} (reported : idx ∈ w'.reported)
    : idx ∈ w.reported ∨ (backend.mayFinish idx true ∧ idx ∈ me'.scanned) := by
  cases step with
  | chunkScanned at_ going done finishes =>
      cases done with
      | true =>
          rcases List.mem_append.mp reported with old | new
          · exact .inl old
          · rw [List.mem_singleton.mp new]
            exact .inr ⟨finishes, by simp⟩
      | false => exact .inl reported
  | _ => exact .inl reported

theorem WorkerStep.scanned_subset {w w' : LfuWork} {me me' : Worker}
    (step : WorkerStep env backend w me w' me')
    : me.scanned ⊆ me'.scanned := by
  cases step <;> simp

-----------------------------------------------------------------------------------------
-- The whole scan
-----------------------------------------------------------------------------------------

/-- How many workers have been started. -/
def Pool.launched (s : Pool) : Nat :=
  match s.main with
  | .start => 0
  | .create i => i
  | .join | .returned _ => s.nthreads

/-- What holds throughout a scan: who holds which chunk, and where every failure, stop and
report has left its trace.
-/
structure Covering (env : Platform) (backend : Backend) (base : LfuCtx) (s : Pool)
    : Prop where
  workers : ∀ i, WorkerOk env backend base s.w (s.workers i)
  dispatched : Dispatched s.w.cursor (fun i => (s.workers i).held)
  covered : s.w.failed = false → s.w.limited = false →
    Covered s.w.cursor (fun i => (s.workers i).held)
  started : ∀ i, (s.workers i).pc ≠ .unborn → i < s.launched
  within : ∀ i, s.main = .create i → i ≤ s.nthreads
  failNoted : s.w.failed = true →
    s.w.error = true ∨ (∃ i, (s.workers i).pc = .setDone true) ∨ s.main = .returned 1
  errorFailed : s.w.error = true → s.w.failed = true
  ended : s.w.done = true → s.w.error = true ∨ s.w.limited = true ∨ s.w.reported ≠ []
  reports : ∀ idx ∈ s.w.reported,
    backend.mayFinish idx true ∧ ∃ i, idx ∈ (s.workers i).scanned
  unmerged : (∀ rc, s.main ≠ .returned rc) → s.st = 0
  quiet : ∀ rc, s.main = .returned rc →
    ∀ i, (s.workers i).pc = .unborn ∨ (s.workers i).pc = .returned
  result : ∀ rc, s.main = .returned rc →
    (rc = 1 ∧ s.w.failed = true)
    ∨ (rc = (if s.w.error then 1 else 0) ∧ (∀ i < s.nthreads, (s.workers i).pc = .returned)
        ∧ s.st = ∑ i ∈ Finset.range s.nthreads, (s.workers i).cx.st)

theorem Covering.begin (o : LfuOpts) (ops : LfuTargetOps) (now : Int) (threads : Nat)
    : Covering env backend (workerCtx o ops now) (Pool.begin o ops now threads) where
  workers i := {
    placed := ⟨rfl, rfl⟩
    stopNoted := fun stopped => by cases stopped
    finished := fun _ member => absurd member List.not_mem_nil
    fixed := rfl
    counted := fun _ _ => add_zero _
  }
  dispatched := .start
  covered _ _ _ below := absurd below (Nat.not_lt_zero _)
  started _ born := absurd rfl born
  within _ at_ := by cases at_
  failNoted failed := by cases failed
  errorFailed error := by cases error
  ended done := by cases done
  reports _ member := absurd member List.not_mem_nil
  unmerged _ := rfl
  quiet _ at_ := by cases at_
  result _ at_ := by cases at_

theorem Covering.workerStep {s : Pool} (fresh : base.base = base)
    (inv : Covering env backend base s) (i : Nat) {w : LfuWork} {me : Worker}
    (step : WorkerStep env backend s.w (s.workers i) w me)
    : Covering env backend base { s with w, workers := Function.update s.workers i me } := by
  have ok := inv.workers i
  have grows := step.grows
  have held
      : (fun j => (Function.update s.workers i me j).held)
        = Function.update (fun j => (s.workers j).held) i me.held :=
    funext fun j => Function.apply_update (fun _ => Worker.held) s.workers i me j
  have running (rc : Int) : s.main ≠ .returned rc := by
    intro at_
    rcases inv.quiet rc at_ i with unborn | returned
    · exact step.live.1 unborn
    · exact step.live.2 returned
  exact {
    workers := by
      intro j
      by_cases same : j = i
      · subst same
        simpa using ok.step fresh step
      · simpa [same] using (inv.workers j).grow grows
    dispatched := by
      simp only [held]
      rcases step.held_cases ok with ⟨cursor, kept⟩ | ⟨cursor, taken⟩ | ⟨cursor, less, _⟩
      · rw [cursor, kept]
        exact inv.dispatched.shrink i (List.Sublist.refl _)
      · rw [cursor, taken]
        exact inv.dispatched.take i
      · rw [cursor]
        exact inv.dispatched.shrink i less
    covered := by
      intro noFailure noLimit
      have covered := inv.covered (by grind [grows.failed]) (by grind [grows.limited])
      simp only [held]
      rcases step.held_cases ok with ⟨cursor, kept⟩ | ⟨cursor, taken⟩ | ⟨_, _, lost⟩
      · rw [cursor, kept, Function.update_eq_self_iff.mpr rfl]
        exact covered
      · rw [cursor, taken]
        exact covered.take i
      · grind
    started := by
      intro j born
      by_cases same : j = i
      · rw [same]
        exact inv.started i step.live.1
      · exact inv.started j (by simpa [same] using born)
    within := inv.within
    failNoted := by
      intro failed
      rcases step.failed_cases failed with ⟨before, reports⟩ | here
      · rcases inv.failNoted before with error | ⟨j, at_⟩ | noMemory
        · exact .inl (grows.error error)
        · by_cases same : j = i
          · exact .inl (reports (same ▸ at_))
          · exact .inr (.inl ⟨j, by simpa [same] using at_⟩)
        · exact absurd noMemory (running 1)
      · exact .inr (.inl ⟨i, by simpa using here⟩)
    errorFailed := by
      intro error
      rcases step.error_cases ok error with before | failed
      · exact grows.failed (inv.errorFailed before)
      · exact failed
    ended := by
      intro done
      rcases step.done_cases ok done with before | why
      · rcases inv.ended before with error | limited | reported
        · exact .inl (grows.error error)
        · exact .inr (.inl (grows.limited limited))
        · exact .inr (.inr fun empty =>
            reported (List.subset_nil.mp (empty ▸ grows.reported)))
      · exact why
    reports := by
      intro idx reported
      rcases step.reported_cases reported with before | ⟨finishes, scanned⟩
      · obtain ⟨finishes, j, scanned⟩ := inv.reports idx before
        refine ⟨finishes, j, ?_⟩
        by_cases same : j = i
        · subst same
          simpa using step.scanned_subset scanned
        · simpa [same] using scanned
      · exact ⟨finishes, i, by simpa using scanned⟩
    unmerged := inv.unmerged
    quiet := fun rc at_ => absurd at_ (running rc)
    result := fun rc at_ => absurd at_ (running rc)
  }

/-- `lfu_scan` goes on, having started no further worker. -/
theorem Covering.advance {s : Pool} (inv : Covering env backend base s) {main : MainPc}
    {nthreads : Nat} (before : ∀ rc, s.main ≠ .returned rc)
    (after : ∀ rc, main ≠ .returned rc) (within : ∀ i, main = .create i → i ≤ nthreads)
    (launched : s.launched ≤ Pool.launched { s with main, nthreads })
    : Covering env backend base { s with main, nthreads } :=
  {
    inv with
    started := fun i born => Nat.lt_of_lt_of_le (inv.started i born) launched
    within
    failNoted := fun failed => by
      rcases inv.failNoted failed with error | setting | noMemory
      · exact .inl error
      · exact .inr (.inl setting)
      · exact absurd noMemory (before 1)
    unmerged := fun _ => inv.unmerged before
    quiet := fun rc at_ => absurd at_ (after rc)
    result := fun rc at_ => absurd at_ (after rc)
  }

/-- Starting the next worker. -/
theorem Covering.launch {s : Pool} (inv : Covering env backend base s) {i : Nat}
    (next : s.launched = i)
    : (∀ rc, s.main ≠ .returned rc) → ∀ main : MainPc, (∀ rc, main ≠ .returned rc) →
      (∀ k, main = .create k → k ≤ s.nthreads) →
      Pool.launched { s with main } = i + 1 →
      Covering env backend base { s with workers := s.launch i, main } := by
  intro before main after within launched
  have unborn : (s.workers i).pc = .unborn := by
    by_contra born
    have := inv.started i born
    omega
  have held : (fun j => (s.launch i j).held) = fun j => (s.workers j).held := by
    funext j
    by_cases same : j = i
    · subst same
      simp [Pool.launch, Worker.held, unborn]
    · simp [Pool.launch, same]
  have scanned (j : Nat) : (s.launch i j).scanned = (s.workers j).scanned := by
    by_cases same : j = i
    · subst same
      simp [Pool.launch]
    · simp [Pool.launch, same]
  have pc_of_ne {j : Nat} (different : j ≠ i) : (s.launch i j).pc = (s.workers j).pc := by
    simp [Pool.launch, different]
  exact {
    workers := by
      intro j
      by_cases same : j = i
      · subst same
        simpa [Pool.launch] using (inv.workers j).launch unborn
      · simpa [Pool.launch, same] using inv.workers j
    dispatched := by
      simp only [held]
      exact inv.dispatched
    covered := by
      simp only [held]
      exact inv.covered
    started := by
      intro j born
      by_cases same : j = i
      · change j < Pool.launched { s with main }
        omega
      · have := inv.started j (pc_of_ne same ▸ born)
        change j < Pool.launched { s with main }
        omega
    within
    failNoted := by
      intro failed
      rcases inv.failNoted failed with error | ⟨j, at_⟩ | noMemory
      · exact .inl error
      · refine .inr (.inl ⟨j, ?_⟩)
        by_cases same : j = i
        · rw [same, unborn] at at_
          cases at_
        · exact (pc_of_ne same).trans at_
      · exact absurd noMemory (before 1)
    errorFailed := inv.errorFailed
    ended := inv.ended
    reports := by
      simp only [scanned]
      exact inv.reports
    unmerged := fun _ => inv.unmerged before
    quiet := fun rc at_ => absurd at_ (after rc)
    result := fun rc at_ => absurd at_ (after rc)
  }

theorem Pool.merged_eq {s : Pool} (unmerged : s.st = 0)
    : s.merged = ∑ i ∈ Finset.range s.nthreads, (s.workers i).cx.st := by
  unfold Pool.merged
  rw [unmerged]
  induction s.nthreads with
  | zero => rfl
  | succ n ih =>
      rw [List.range_succ, List.foldl_append, ih, Finset.sum_range_succ]
      rfl

theorem Covering.step {s s' : Pool} {event : PoolEvent} (fresh : base.base = base)
    (inv : Covering env backend base s) (step : PoolStep env backend s event s')
    : Covering env backend base s' := by
  cases step with
  | noMemory at_ =>
      have unborn (i : Nat) : (s.workers i).pc = .unborn := by
        by_contra born
        have := inv.started i born
        simp [Pool.launched, at_] at this
      exact {
        inv with
        workers := fun i =>
          (inv.workers i).grow ⟨id, id, fun _ => rfl, id, List.Subset.refl _⟩
        covered := fun noFailure => absurd noFailure (by simp)
        started := fun i born => absurd (unborn i) born
        within := fun i here => by cases here
        failNoted := fun _ => .inr (.inr rfl)
        errorFailed := fun _ => rfl
        unmerged := fun running => absurd rfl (running 1)
        quiet := fun _ _ i => .inl (unborn i)
        result := fun rc here => .inl ⟨by cases here; rfl, rfl⟩
      }
  | runSingle at_ single =>
      exact inv.launch (by simp [Pool.launched, at_]) (by simp [at_]) _ (by simp) (by simp)
        (by simp [Pool.launched, single])
  | runSeveral at_ several =>
      exact inv.advance (by simp [at_]) (by simp) (by simp) (by simp [Pool.launched, at_])
  | @create i at_ more =>
      exact inv.launch (by simp [Pool.launched, at_]) (by simp [at_]) _ (by simp)
        (fun k here => by cases here; omega) (by simp [Pool.launched])
  | createFailed at_ more =>
      exact inv.advance (by simp [at_]) (by simp) (by simp) (by simp [Pool.launched, at_])
  | created at_ all =>
      exact inv.advance (by simp [at_]) (by simp) (by simp)
        (by simpa [Pool.launched, at_] using inv.within _ at_)
  | join at_ finished =>
      have before (rc : Int) : s.main ≠ .returned rc := by simp [at_]
      have quiet (i : Nat) : (s.workers i).pc = .unborn ∨ (s.workers i).pc = .returned := by
        by_cases born : (s.workers i).pc = .unborn
        · exact .inl born
        · have below := inv.started i born
          simp only [Pool.launched, at_] at below
          exact .inr (finished i below)
      exact {
        inv with
        started := fun i born => by
          have below := inv.started i born
          simp only [Pool.launched, at_] at below
          exact below
        within := fun i here => by cases here
        failNoted := fun failed => by
          rcases inv.failNoted failed with error | ⟨i, setting⟩ | noMemory
          · exact .inl error
          · rcases quiet i with unborn | returned <;> simp_all
          · exact absurd noMemory (before 1)
        unmerged := fun running => absurd rfl (running _)
        quiet := fun _ _ => quiet
        result := fun rc here => by
          refine .inr ⟨by cases here; rfl, finished, Pool.merged_eq (inv.unmerged before)⟩
      }
  | worker i step => exact inv.workerStep fresh i step

theorem Covering.run {o : LfuOpts} {ops : LfuTargetOps} {now : Int} {threads : Nat}
    {trace : List PoolEvent} {s : Pool}
    (run : Run (PoolStep env backend) (Pool.begin o ops now threads) trace s)
    : Covering env backend (workerCtx o ops now) s :=
  run.invariant (Covering env backend (workerCtx o ops now)) (.begin o ops now threads)
    (fun _ _ _ inv step => inv.step rfl step)

/-- A scan that came back without an error or a limit, with at least one worker, has seen
the end and scanned every chunk up to it.
-/
theorem Covering.complete {s : Pool} {rc : Int} (inv : Covering env backend base s)
    (returned : s.main = .returned rc) (noFailure : s.w.failed = false)
    (noLimit : s.w.limited = false) (running : 0 < s.nthreads)
    : s.w.reported ≠ [] ∧ ∀ idx < s.w.cursor, ∃ i, idx ∈ (s.workers i).scanned := by
  have noError : s.w.error = false := by grind [inv.errorFailed]
  have finished : (s.workers 0).pc = .returned := by
    rcases inv.result rc returned with ⟨_, failed⟩ | ⟨_, finished, _⟩
    · simp [noFailure] at failed
    · exact finished 0 running
  have done : s.w.done = true := by
    have placed := (inv.workers 0).placed
    unfold Worker.Placed at placed
    rwa [finished] at placed
  constructor
  · rcases inv.ended done with error | limited | reported
    · simp [noError] at error
    · simp [noLimit] at limited
    · exact reported
  · intro idx below
    obtain ⟨i, held⟩ := inv.covered noFailure noLimit idx below
    refine ⟨i, ?_⟩
    rcases inv.quiet rc returned i with unborn | finished
    · simpa [Worker.held, unborn] using held
    · simpa [Worker.held, finished] using held

end LfuScan.Core
