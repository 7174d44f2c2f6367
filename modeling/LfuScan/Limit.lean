import LfuScan.Core.Limit
import LfuScan.Device.Enumeration
import LfuScan.Kmdt.Backend

/-! The three backends under a limit: each of them visits the entries of its chunks in order
and looks at the stop flag before every one.
-/

namespace LfuScan

open LfuScan.Lustre LfuScan.Filter LfuScan.Ring LfuScan.Core LfuScan.Device LfuScan.Kmdt

variable {env : Platform} {plain : LfuCtx}

theorem ldiskfsVisit_unemitted (t : LfuLdiskfs) (needs : UInt32) (next : NextInode)
    : (ldiskfsVisit t needs next).own.emitted = 0 := by
  cases next with
  | badBlock | failed | finished => rfl
  | inode ino raw =>
      simp only [ldiskfsVisit]
      repeat' split
      all_goals rfl

theorem ldiskfs_visiting (t : LfuLdiskfs)
    : Visiting env (lfuLdiskfsScanChunk env t) plain (ldiskfsBackend t plain.needs).chunk
        fun idx => (t.chunk idx).2 where
  mine idx entry member := by
    obtain ⟨next, _, rfl⟩ := List.mem_map.mp member
    exact ldiskfsVisit_unemitted t _ next
  visits cx idx same going := by
    have needs : cx.needs = plain.needs := (congrArg LfuCtx.needs same :)
    rw [lfuLdiskfsScanChunk_visits env t going, needs]
    exact ⟨rfl, rfl, rfl, fun went => ⟨if_neg (Bool.eq_false_iff.mp went), fun _ => rfl⟩⟩

theorem zfsVisit_plain {cx : LfuCtx} (same : cx.plain = plain.plain) (id : UInt64)
    (obj : ZfsObject)
    : zfsVisit env cx id obj = zfsVisit env plain id obj := by
  have survives (rec : LfuRec) : (lfuPrefilter cx rec).1 = (lfuPrefilter plain rec).1 := by
    rw [lfuPrefilter_survives, lfuPrefilter_survives]
    exact (congrArg (fun cx => !lfuFilterActive cx.o.filter || cx.ops.pushdown
      || lfuFilterTier0 cx.o.filter rec cx.now) same :)
  have needs : cx.needs = plain.needs := (congrArg LfuCtx.needs same :)
  simp only [zfsVisit, listedVisit, survives, needs]

theorem listedVisit_unemitted (base : LfuCtx) {own : LfuStats} (mine : own.emitted = 0)
    (tier0 : LfuRec) (dxattr : Dxattr)
    : (listedVisit env base own tier0 dxattr).own.emitted = 0 := by
  have added {other : LfuStats} (none_ : other.emitted = 0) : (own + other).emitted = 0 := by
    rw [stats_add_eq]
    exact (congrArg₂ (· + ·) mine none_ :)
  cases dxattr with
  | absent =>
      simp only [listedVisit]
      split
      · exact added rfl
      · exact mine
  | unreadable =>
      simp only [listedVisit]
      split
      · exact added rfl
      · exact added rfl
  | unpacked lma named => exact mine

theorem zfsVisit_unemitted (base : LfuCtx) (id : UInt64) (obj : ZfsObject)
    : (zfsVisit env base id obj).own.emitted = 0 := by
  unfold zfsVisit
  split
  · rfl
  · split
    · rfl
    · split
      · rfl
      · split
        · exact listedVisit_unemitted base rfl _ _
        · rfl

theorem zfs_visiting (z : LfuZfs) (cleared : plain.plain = plain)
    : Visiting env (zfsScanChunk env z) plain (zfsBackend env z plain).chunk
        fun idx => (z.chunk idx).2.map fun done => (0, done) where
  mine idx entry member := by
    obtain ⟨⟨id, obj⟩, _, rfl⟩ := List.mem_map.mp member
    exact zfsVisit_unemitted _ id obj
  visits cx idx same going := by
    have chunk : (zfsBackend env z cx).chunk idx = (zfsBackend env z plain).chunk idx := by
      simp only [zfsBackend, zfsVisit_plain (same.trans cleared.symm)]
    unfold zfsScanChunk
    rw [lfuZfsScanChunk_visits, chunk]
    refine ⟨rfl, rfl, rfl, fun went => ⟨?_, fun _ => rfl⟩⟩
    dsimp only
    rw [if_neg (Bool.eq_false_iff.mp went)]

/-- How a call ends if nothing stops it. -/
def streamOutcome (memory : Bool) (ended : Option Int) (idx : Nat) : Option (Int × Bool) :=
  if idx > 0 then
    some (0, true)
  else if !memory then
    some (-1, false)
  else
    ended.map fun rc => if rc != 0 then (rc, false) else (0, true)

/-- The records of the stream, if there is a buffer for them. -/
def streamChunk (memory : Bool) (recs : List LfuWireRec) (idx : Nat) : List Visit :=
  if idx > 0 || !memory then [] else recs.map kmdtVisit

theorem foldStats_kept (cx : LfuCtx) (stats : Option LfuRingStats)
    : (foldStats cx stats).st.emitted = cx.st.emitted
      ∧ (foldStats cx stats).stop = cx.stop := by
  cases stats <;> exact ⟨rfl, rfl⟩

theorem kmdt_visiting (memory : Bool) (reads : List ReadResult) (stats : Option LfuRingStats)
    : Visiting env (fun cx idx => lfuKmdtScanChunk env cx idx memory reads stats) plain
        (streamChunk memory (streamRecords reads)) (streamOutcome memory (streamEnd reads)) where
  mine idx entry member := by
    unfold streamChunk at member
    split at member
    · cases member
    · obtain ⟨wr, _, rfl⟩ := List.mem_map.mp member
      rfl
  visits cx idx _ going := by
    unfold lfuKmdtScanChunk streamChunk streamOutcome
    by_cases later : idx > 0
    · simp only [later, if_true, decide_true, Bool.true_or, visitEntries]
      exact ⟨trivial, trivial, trivial, fun _ => ⟨trivial, fun _ => trivial⟩⟩
    cases memory with
    | false =>
        simp [later, visitEntries]
    | true =>
        simp only [later, if_false, decide_false, Bool.not_true, Bool.or_self,
          Bool.false_eq_true, readLoop_visits]
        generalize visitEntries env cx ((streamRecords reads).map kmdtVisit) = visited
        obtain ⟨emitted, stop⟩ := foldStats_kept visited.1 stats
        cases halted : visited.1.stop with
        | true =>
            simp only [if_true]
            refine ⟨rfl, emitted, stop.trans halted, fun going => ?_⟩
            cases going
        | false =>
            simp only [Bool.false_eq_true, if_false]
            cases streamEnd reads with
            | none =>
                refine ⟨rfl, rfl, halted, fun _ => ⟨rfl, fun failed => ?_⟩⟩
                cases failed
            | some rc =>
                by_cases ended : rc = 0
                · simp [ended, halted, emitted, stop]
                · simp [ended, halted]

/-- With a limit every backend emits the first records it would emit without one. The calls
of a stream may return the records in other batches, and the statistics may differ.
-/
theorem limit_yields_first (env : Platform) (o : LfuOpts) (ops : LfuTargetOps) (now : Int)
    (n : UInt64) (positive : n ≠ 0) (chunks : Nat)
    : (∀ t,
        FirstRecords n (scanAlone (lfuLdiskfsScanChunk env t) ops now chunks)
          (scanAlone (lfuLdiskfsScanChunk env t) ops now chunks) o)
      ∧ (∀ z,
          FirstRecords n (scanAlone (zfsScanChunk env z) ops now chunks)
            (scanAlone (zfsScanChunk env z) ops now chunks) o)
      ∧ ∀ memory reads reads' stats stats',
          streamRecords reads = streamRecords reads'
          → streamEnd reads = streamEnd reads'
          → FirstRecords n
              (scanAlone (fun cx idx => lfuKmdtScanChunk env cx idx memory reads stats) ops now
                chunks)
              (scanAlone (fun cx idx => lfuKmdtScanChunk env cx idx memory reads' stats') ops now
                chunks)
              o := by
  refine ⟨fun t => ?_, fun z => ?_, fun memory reads reads' stats stats' same ends => ?_⟩
  · exact (ldiskfs_visiting t).firstRecords (ldiskfs_visiting t) n positive chunks
  · exact (zfs_visiting z rfl).firstRecords (zfs_visiting z rfl) n positive chunks
  · have mine : Visiting env _ (workerCtx o ops now).plain _ _ := kmdt_visiting memory reads stats
    rw [same, ends] at mine
    exact mine.firstRecords (kmdt_visiting memory reads' stats') n positive chunks

/-- Two objects in one batch. -/
def twoObjects : List ReadResult :=
  [.got [{ wrOid := 1, wrFidSeq := 0x200000400 }, { wrOid := 2, wrFidSeq := 0x200000400 }],
    .got []]

/-- A limit of one is reached in the middle of the batch. -/
theorem limit_yields_first_midBatch
    : let scan :=
        scanAlone (fun cx idx => lfuKmdtScanChunk exactNames cx idx true twoObjects none)
          { idLabel := [], pushdown := true } 0 1
      (records (scan { limit := 1 }).2).map (·.id) = [1]
      ∧ (records (scan {}).2).map (·.id) = [1, 2]
      ∧ FirstRecords 1 scan scan {} := by
  refine ⟨by decide, by decide, ?_⟩
  exact (limit_yields_first exactNames {} _ 0 1 (by decide) 1).2.2 true twoObjects twoObjects
    none none rfl rfl

end LfuScan
