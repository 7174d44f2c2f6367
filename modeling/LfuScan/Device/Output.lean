import LfuScan.Device.Geometry
import LfuScan.Device.Accounting
import LfuScan.Core.Output
import LfuScan.Foundations.Chunking

/-! What a scan of an ldiskfs target prints: the lines of its inode table. An inode in a bad
block may be counted by two chunks, but it is printed by none, so the output is exact where
the counters are not.
-/

namespace LfuScan.Device

open LfuScan.Lustre LfuScan.Filter LfuScan.Core LfuScan.Foundations

/-- The lines of an inode. -/
def LfuLdiskfs.inodeLines (t : LfuLdiskfs) (env : Platform) (base : LfuCtx)
    (table : InodeTable) (ino : Nat)
    : List Line :=
  entryLines env base (ldiskfsVisit t base.needs (table.next ino))

variable {t : LfuLdiskfs} {table : InodeTable} {env : Platform} {base : LfuCtx}

theorem inodeLines_bad {ino : Nat} (bad : table ino = none)
    : t.inodeLines env base table ino = [] := by
  unfold LfuLdiskfs.inodeLines InodeTable.next
  rw [bad]
  rfl

/-- Taking the bad inodes behind an end along adds no line. -/
theorem takeWhile_lines (bound start n : Nat)
    : ((List.range' start n).takeWhile
          fun ino => decide (ino ≤ bound) || (table ino).isNone).flatMap
        (t.inodeLines env base table)
      = (List.range' start (min n (bound + 1 - start))).flatMap
          (t.inodeLines env base table) := by
  induction n generalizing start with
  | zero => simp
  | succ n ih =>
      by_cases within : start ≤ bound
      · have width : min (n + 1) (bound + 1 - start) = min n (bound + 1 - (start + 1)) + 1 := by
          omega
        rw [width, List.range'_succ, List.range'_succ,
          List.takeWhile_cons_of_pos (by simp [within]), List.flatMap_cons, List.flatMap_cons, ih]
      · have none_ : min (n + 1) (bound + 1 - start) = 0 := by omega
        rw [none_, List.range'_zero, List.flatMap_nil, List.flatMap_eq_nil_iff]
        intro ino member
        obtain ⟨lower, _, all⟩ := mem_takeWhile_range'.mp member
        have bad := all ino lower (Nat.le_refl _)
        refine inodeLines_bad ?_
        simpa [Nat.not_le.mpr (Nat.lt_of_lt_of_le (Nat.not_le.mp within) lower)] using bad

section Table

variable (regular : t.super.Regular) (walks : Walks t table)
include regular walks

theorem chunkLines_table (idx : Nat)
    : chunkLines env (ldiskfsBackend t base.needs) base idx
      = (List.range' (idx * t.chunkWidth + 1)
            ((t.endIno idx).1 - idx * t.chunkWidth)).flatMap
          (t.inodeLines env base table) := by
  have lines : chunkLines env (ldiskfsBackend t base.needs) base idx
      = (t.counted table idx).flatMap (t.inodeLines env base table) := by
    simp only [chunkLines, ldiskfsBackend, chunk_table regular walks, List.map_map,
      List.flatMap_map]
    rfl
  have width : min (t.super.sInodesCount.toNat - idx * t.chunkWidth)
      ((t.endIno idx).1 + 1 - (idx * t.chunkWidth + 1))
      = (t.endIno idx).1 - idx * t.chunkWidth := by
    rw [endIno_eq]
    dsimp only
    omega
  rw [lines, LfuLdiskfs.counted, takeWhile_lines, width]

/-- The chunks in order are the table in order. -/
theorem chunks_table (env : Platform) (base : LfuCtx) (chunks : Nat)
    : (List.range chunks).flatMap (chunkLines env (ldiskfsBackend t base.needs) base)
      = (List.range' 1 (min (chunks * t.chunkWidth) t.super.sInodesCount.toNat)).flatMap
          (t.inodeLines env base table) := by
  rw [← flatMap_chunks]
  refine congrArg (fun f => (List.range chunks).flatMap f) (funext fun idx => ?_)
  rw [chunkLines_table regular walks, endIno_eq]
  rfl

/-- Behind a chunk that reports the end there is nothing to print. -/
theorem lines_behind_done {idx : Nat} {needs : UInt32}
    (finishes : (ldiskfsBackend t needs).mayFinish idx true) {ino : Nat}
    (behind : (idx + 1) * t.chunkWidth < ino) (within : ino ≤ t.super.sInodesCount.toNat)
    : t.inodeLines env base table ino = [] := by
  have done : t.reportsDone table idx = true := by
    simpa [ldiskfsBackend, chunk_table regular walks] using finishes
  rw [LfuLdiskfs.reportsDone, Bool.or_eq_true, endIno_eq] at done
  dsimp only at done
  rcases done with short | all
  · rw [decide_eq_true_eq] at short
    omega
  · rw [Nat.add_mul] at behind
    have mine := List.all_eq_true.mp all ino (List.mem_range'_1.mpr (by omega))
    rw [Bool.or_eq_true, decide_eq_true_eq, Option.isNone_iff_eq_none, Nat.add_mul] at mine
    rcases mine with inside | bad
    · omega
    · exact inodeLines_bad bad

end Table

/-- Whatever the number of threads and the interleaving: a scan of an ldiskfs target that
returned zero and had a worker has printed the lines of the inodes of the table, each inode's
once, wherever blocks of the table are bad.
-/
theorem ldiskfs_output_exact {env : Platform} {o : LfuOpts} {now : Int} {threads : Nat}
    {trace : List PoolEvent} {s : Pool} (t : LfuLdiskfs) (table : InodeTable)
    (regular : t.super.Regular) (walks : Walks t table) (noLimit : o.limit = 0)
    (run
      : Run (PoolStep env (ldiskfsBackend t (lfuFilterNeeds o.filter)))
          (Pool.begin o lfuLdiskfsOps now threads) trace s)
    (returned : s.main = .returned 0) (running : 0 < s.nthreads)
    : s.w.out.Perm
        ((List.range' 1 t.super.sInodesCount.toNat).flatMap
          (t.inodeLines env (workerCtx o lfuLdiskfsOps now) table)) := by
  have printing := Printing.run run
  have covering := printing.covering
  have noFailure := covering.unfailed_of_zero returned
  have unlimited := unlimited_run noLimit run
  obtain ⟨ended, _⟩ := covering.complete returned noFailure unlimited running
  obtain ⟨last, reported⟩ := List.exists_mem_of_ne_nil _ ended
  obtain ⟨finishes, owner, scanned⟩ := covering.reports last reported
  have below : last + 1 ≤ s.w.cursor :=
    covering.dispatched.bound owner last (by rwa [covering.held_eq_scanned returned])
  have printed := printing.perm returned noFailure unlimited
  have chunks :=
    chunks_table regular walks env (workerCtx o lfuLdiskfsOps now) s.w.cursor
  have reached : (last + 1) * t.chunkWidth ≤ s.w.cursor * t.chunkWidth :=
    Nat.mul_le_mul_right _ below
  -- the inodes behind the chunks handed out are behind the reported end
  have rest
      : (List.range' 1 t.super.sInodesCount.toNat).flatMap
          (t.inodeLines env (workerCtx o lfuLdiskfsOps now) table)
        = (List.range' 1 (min (s.w.cursor * t.chunkWidth) t.super.sInodesCount.toNat)).flatMap
          (t.inodeLines env (workerCtx o lfuLdiskfsOps now) table) := by
    have split : t.super.sInodesCount.toNat
        = min (s.w.cursor * t.chunkWidth) t.super.sInodesCount.toNat
          + (t.super.sInodesCount.toNat - s.w.cursor * t.chunkWidth) := by
      omega
    conv_lhs => rw [split, ← List.range'_append_1, List.flatMap_append]
    refine List.append_right_eq_self.mpr (List.flatMap_eq_nil_iff.mpr fun ino member => ?_)
    rw [List.mem_range'_1] at member
    exact lines_behind_done regular walks finishes (by omega) (by omega)
  rw [rest, ← chunks]
  exact printed

/-- Sixteen inodes in one group. -/
def sixteenInodes : Ext2Super where
  inodeSize := 256
  sInodesPerGroup := 16
  sInodesCount := 16
  firstInode := 11
  groupDescCount := 1

/-- A regular file in inode 12, and a bad block behind it. -/
def oneFile : InodeTable := fun ino =>
  if ino = 12 then some { iMode := 0o100644, iLinksCount := 1 }
  else if ino = 13 then none
  else some {}

/-- A verbose scan prints one line, for the file, as an object without an LMA. -/
theorem ldiskfs_output_oneFile
    : ∃ trace s,
        Run (PoolStep exactNames (ldiskfsBackend (tableTarget sixteenInodes oneFile) 0))
          (Pool.begin { verbose := true } lfuLdiskfsOps 0 1) trace s
        ∧ s.main = .returned 0
        ∧ s.w.out.map (fun line => (line.diagnostic, line.id)) = [(some .noLma, 12)] := by
  have regular : sixteenInodes.Regular := ⟨by decide, by decide⟩
  have walks := tableTarget_walks sixteenInodes oneFile
  have finishes : ((tableTarget sixteenInodes oneFile).chunk 0).2 = some (0, true) := by
    rw [chunk_table regular walks]
    decide
  have noLimit : ({ verbose := true } : LfuOpts).limit = 0 := rfl
  obtain ⟨trace, s, run, returned, _⟩ :=
    oneChunk_run { verbose := true } lfuLdiskfsOps 0 noLimit
      (show (ldiskfsBackend (tableTarget sixteenInodes oneFile) 0).mayFinish 0 true from finishes)
  have running : 0 < s.nthreads := by
    rw [single_nthreads run]
    exact Nat.one_pos
  have printed :=
    ldiskfs_output_exact (tableTarget sixteenInodes oneFile) oneFile regular walks noLimit run
      returned running
  refine ⟨trace, s, run, returned, ?_⟩
  have lines := printed.map fun line => (line.diagnostic, line.id)
  exact List.perm_singleton.mp (lines.trans (.of_eq (by decide +kernel)))

end LfuScan.Device
