import LfuScan.Core.Completeness
import LfuScan.Kmdt.Backend
import LfuScan.Ring.Completion
import LfuScan.Ring.Reads

/-! From the iterator to the result of the scan: what an end of file says about the
enumeration, and where a failure of the stream ends up.
-/

namespace LfuScan.Kmdt

open LfuScan.Lustre LfuScan.Filter LfuScan.Foundations LfuScan.Ring LfuScan.Core

/-- A stream that fails before it has ended makes the chunk fail. -/
theorem streamEnd_failed {reads : List ReadResult} {errno : Int}
    (unfinished : .got [] ∉ reads) (real : errno ≠ eintr)
    : streamEnd (reads ++ [.failed errno]) = some (-1) := by
  induction reads with
  | nil => simp [streamEnd, real]
  | cons read rest ih =>
      obtain ⟨here, later⟩ := not_or.mp (mt List.mem_cons.mpr unfinished)
      cases read with
      | failed other =>
          by_cases interrupted : other = eintr
          · simpa [streamEnd, interrupted] using ih later
          · simp [streamEnd, interrupted]
      | got records =>
          cases records with
          | nil => exact absurd rfl here
          | cons wr more => simpa [streamEnd] using ih later

theorem readErrno_ne_eintr {rc : Int} (real : rc ≠ -eintr) (kept : rc ≠ -erestartsys)
    : readErrno rc ≠ eintr := by
  rw [readErrno, if_neg kept]
  omega

/-- Before a negative end no `read()` looked like an end of file. -/
theorem unfinished_of_negative {trace : List Event} {s : Sys} (reads : ReadsSo trace s)
    (negative : s.err < 0)
    : .got [] ∉ readResults trace := by
  intro ended
  obtain ⟨event, member, result⟩ := List.mem_filterMap.mp ended
  cases event with
  | readRecords records =>
      have some_ := reads.records records member
      simp only [readResult, Option.some.injEq, ReadResult.got.injEq] at result
      exact some_ result
  | readEnd rc =>
      have code := (reads.ends rc member).2
      have failed : rc < 0 := by omega
      simp [readResult, failed] at result
  | readFail rc => simp [readResult, reads.failures rc member] at result
  | _ => cases result

/-- A scan of a stream that did not end properly does not return zero. -/
theorem scan_nonzero {user : Platform} {reads : List ReadResult} {o : LfuOpts}
    {ops : LfuTargetOps} {now : Int} {threads : Nat} {poolTrace : List PoolEvent} {pool : Pool}
    {result : Int} (unended : streamEnd reads ≠ some 0)
    (run
      : Run (PoolStep user (kmdtBackend reads)) (Pool.begin o ops now threads) poolTrace pool)
    (returned : pool.main = .returned result) (running : 0 < pool.nthreads)
    (noLimit : pool.w.limited = false)
    : result ≠ 0 := by
  rintro rfl
  have inv := Covering.run run
  obtain ⟨ended, scanned⟩ :=
    inv.complete returned (inv.unfailed_of_zero returned) noLimit running
  obtain ⟨last, reported⟩ := List.exists_mem_of_ne_nil _ ended
  obtain ⟨_, owner, done⟩ := inv.reports last reported
  have below : last < pool.w.cursor :=
    inv.dispatched.bound owner last (by rwa [inv.held_eq_scanned returned])
  obtain ⟨i, stream⟩ := scanned 0 (by omega)
  obtain ⟨_, _, beyond | finished⟩ := (inv.workers i).finished 0 stream
  · exact Nat.lt_irrefl 0 beyond
  · exact unended finished

/-- The contract of end of file holds of a run, up to the `read()` that reports the end,
exactly when `next()` has not failed in it. A negative `read()` that is not taken for an
interrupted one makes the backend's call fail, and with it every scan of the stream.
-/
theorem eof_complete_iff {env : Platform} {params : RingParams} {start s s' : Sys}
    {trace : List Event} {rc register : Int} (accepted : lfuRingInit params register = 0)
    (fresh : start.Fresh) (run : Run (Step env params) start trace s)
    (step : Step env params s (.readEnd rc) s')
    : (((rc = 0 → EndReported trace)
          ∧ ∀ code < 0, .loadRet code ∈ trace ∨ .nextRet code ∈ trace → rc < 0)
        ↔ ∀ code < 0, .nextRet code ∉ trace)
      ∧ (rc < 0 → rc ≠ -eintr → rc ≠ -erestartsys →
          (∀ user cx stats, cx.o.limit = 0 → cx.stop = false →
            (lfuKmdtScanChunk user cx 0 true (readResults (trace ++ [.readEnd rc]))
                stats).2.2
              = some (-1, false))
          ∧ ∀ user o ops now threads poolTrace pool result,
              Run (PoolStep user (kmdtBackend (readResults (trace ++ [.readEnd rc]))))
                (Pool.begin o ops now threads) poolTrace pool →
              pool.main = .returned result → 0 < pool.nthreads →
              pool.w.limited = false → result ≠ 0) := by
  refine ⟨readEnd_complete_iff (Accounted.run fresh run) step, ?_⟩
  intro negative real kept
  have reads := ReadsSo.run (lfuRingInit_sound accepted) fresh (run.snoc step)
  have code : s'.err = rc := (reads.ends rc (by simp)).2
  have failed : streamEnd (readResults (trace ++ [.readEnd rc])) = some (-1) := by
    have split_
        : readResults (trace ++ [.readEnd rc])
          = readResults trace ++ [.failed (readErrno rc)] := by
      simp [readResults, readResult, negative]
    rw [split_]
    refine streamEnd_failed (fun ended => ?_) (readErrno_ne_eintr real kept)
    refine unfinished_of_negative reads (by omega) ?_
    rw [split_]
    exact List.mem_append_left _ ended
  constructor
  · intro user cx stats noLimit going
    rw [lfuKmdtScanChunk_stream user noLimit going, failed]
    rfl
  · intro user o ops now threads poolTrace pool result poolRun returned running noLimit
    exact scan_nonzero (by rw [failed]; nofun) poolRun returned running noLimit

/-- `load()` fails: the reader is told, and a scan of the stream cannot succeed. -/
theorem eof_complete_loadFailed
    : ∃ trace s s', Run (Step exactNames fourSlots) {} trace s
        ∧ Step exactNames fourSlots s (.readEnd (-5)) s'
        ∧ .loadRet (-5) ∈ trace
        ∧ (lfuKmdtScanChunk exactNames (workerCtx {} inodes 0) 0 true
              (readResults (trace ++ [.readEnd (-5)])) none).2.2
            = some (-1, false) := by
  have run : Run (Step exactNames fourSlots) {} [] {} := .nil
  have run := run.snoc (.reader (.call rfl 168 rfl (by decide)))
  have run := run.snoc (.reader (.startNew rfl rfl))
  have run := run.snoc (.producer (.setupOk rfl))
  have run := run.snoc (.producer (.loadFail rfl (-5) (by decide)))
  have run := run.snoc (.producer (.setErr rfl))
  have run := run.snoc (.producer (.setDone rfl))
  have run := run.snoc (.reader (.headNone rfl (by decide)))
  have run := run.snoc (.reader (.doneYes rfl rfl))
  have accepted : lfuRingInit fourSlots 0 = 0 := by decide
  have contract := eof_complete_iff accepted sys_fresh run (.reader (.loadErr rfl))
  have failed := (contract.2 (by decide) (by decide) (by decide)).1
  exact ⟨_, _, _, run, .reader (.loadErr rfl), by simp, failed _ _ _ rfl rfl⟩

/-- `next()` fails after the first object, the reader gets an end of file, and the
backend's call reports success, although the table had not ended.
-/
theorem eof_hides_next_error
    : ∃ trace s s', Run (Step exactNames fourSlots) {} trace s
        ∧ Step exactNames fourSlots s (.readEnd 0) s'
        ∧ .nextRet (-5) ∈ trace ∧ ¬ EndReported trace
        ∧ (lfuKmdtScanChunk exactNames (workerCtx {} inodes 0) 0 true
              (readResults (trace ++ [.readEnd 0])) none).2.2
            = some (0, true) := by
  have run := started_run.snoc (.producer (.recFail rfl))
  have run := run.snoc (.producer (.nextEnd rfl (-5) (by decide)))
  have run := run.snoc (.producer (.drained rfl none))
  have run := run.snoc (.producer (.setErr rfl))
  have run := run.snoc (.producer (.setDone rfl))
  have run := run.snoc (.reader (.headNone rfl (by decide)))
  have run := run.snoc (.reader (.doneYes rfl rfl))
  refine ⟨_, _, _, run, .reader (.loadErr rfl), by simp, ?_, rfl⟩
  rintro ⟨code, positive, loaded | advanced⟩
  · simp at loaded
    omega
  · simp at advanced
    omega

end LfuScan.Kmdt
