import LfuScan.Core.Accounting
import LfuScan.Core.Completeness
import Mathlib.Tactic.Abel

/-! What a parallel scan prints. Its workers write to one stream in any order; what they
write between them is what the chunks hold, each line once.
-/

namespace LfuScan.Core

open LfuScan.Lustre LfuScan.Filter LfuScan.Foundations

variable {env : Platform} {backend : Backend} {base : LfuCtx}

/-- The lines an entry is printed as. -/
def entryLines (env : Platform) (base : LfuCtx) (entry : Visit) : List Line :=
  (visitEntry env base entry).2

/-- The lines of a chunk, in the order of its entries. -/
def chunkLines (env : Platform) (backend : Backend) (base : LfuCtx) (idx : Nat) : List Line :=
  (backend.chunk idx).flatMap (entryLines env base)

theorem emitObject_lines (cx : LfuCtx) (rec : LfuRec) (m : LfuMatch)
    : (emitObject cx rec m).2 = (emitObject cx.base rec m).2 := rfl

theorem judgeObject_lines (cx : LfuCtx) (rec : LfuRec) (eas : Option LfuEas)
    : (judgeObject env cx rec eas).2 = (judgeObject env cx.base rec eas).2 := by
  have verdict : objectVerdict env cx rec eas = objectVerdict env cx.base rec eas := rfl
  unfold judgeObject
  rw [verdict]
  cases objectVerdict env cx.base rec eas with
  | noMatch => rfl
  | matched => exact emitObject_lines cx rec _
  | unknown =>
      dsimp only
      have pushed : cx.base.ops.pushdown = cx.ops.pushdown := rfl
      have wanted : cx.base.o.emitUnknown = cx.o.emitUnknown := rfl
      rw [pushed, wanted]
      split
      · exact emitObject_lines cx rec _
      · split
        · exact emitObject_lines _ rec _
        · rfl

theorem showObject_lines (cx : LfuCtx) (c : LfuClass) (rec : LfuRec) (eas : Option LfuEas)
    : (showObject env cx c rec eas).2 = (showObject env cx.base c rec eas).2 := by
  have hidden : hiddenClass cx.base.o c = hiddenClass cx.o c := rfl
  simp only [showObject, hidden]
  split
  · rfl
  · exact congrArg (_ ++ ·) (judgeObject_lines cx rec eas)

theorem lfuObject_lines (cx : LfuCtx) (rec : LfuRec) (haveLma : Bool) (eas : Option LfuEas)
    : (lfuObject env cx rec haveLma eas).2 = (lfuObject env cx.base rec haveLma eas).2 := by
  simp only [lfuObject]
  generalize lfuClassify rec haveLma = c
  obtain ⟨reads, state⟩ := decodeObject_state (countClass cx c) rec eas
  obtain ⟨reads', state'⟩ := decodeObject_state (countClass cx.base c) rec eas
  have record : (decodeObject (countClass cx c) rec eas).2
      = (decodeObject (countClass cx.base c) rec eas).2 := by
    rw [decodeObject_rec, decodeObject_rec]
    rfl
  rw [record, showObject_lines, state, showObject_lines (decodeObject _ rec eas).1, state']
  rfl

theorem visitObject_lines (cx : LfuCtx) (rec : LfuRec) (haveLma : Bool) (eas : Option LfuEas)
    : (visitObject env cx rec haveLma eas).2 = (visitObject env cx.base rec haveLma eas).2 := by
  have survives : (lfuPrefilter cx.base rec).1 = (lfuPrefilter cx rec).1 := by
    rw [lfuPrefilter_survives, lfuPrefilter_survives]
    rfl
  have kept (before : LfuCtx) : (lfuPrefilter before rec).2.base = before.base := by
    rw [lfuPrefilter_state]
    split <;> rfl
  simp only [visitObject, survives]
  split
  · rw [lfuObject_lines, kept, lfuObject_lines (lfuPrefilter cx.base rec).2, kept]
    rfl
  · rfl

theorem visitEntry_lines (cx : LfuCtx) (entry : Visit)
    : (visitEntry env cx entry).2 = entryLines env cx.base entry := by
  unfold entryLines visitEntry
  cases entry.object with
  | none => rfl
  | some parts =>
      exact (visitObject_lines _ _ _ _).trans
        (visitObject_lines { cx.base with st := _ } _ _ _).symm

-----------------------------------------------------------------------------------------
-- What has been printed, and what is still to be
-----------------------------------------------------------------------------------------

/-- What a worker has still to print of its chunk. -/
def Worker.unprinted (env : Platform) (base : LfuCtx) (me : Worker) : Multiset Line :=
  match me.pc with
  | .scanChunk _ rest => ↑(rest.flatMap (entryLines env base))
  | _ => 0

/-- What the chunks hold that a worker has taken. -/
def Worker.heldLines (env : Platform) (backend : Backend) (base : LfuCtx) (me : Worker)
    : Multiset Line :=
  (me.held.map fun idx => (↑(chunkLines env backend base idx) : Multiset Line)).sum

/-- A step prints what leaves the worker's share of unprinted lines. -/
theorem WorkerStep.printed {w w' : LfuWork} {me me' : Worker}
    (step : WorkerStep env backend w me w' me') (ok : WorkerOk env backend base w me)
    (noFailure : w'.failed = false) (noLimit : w'.limited = false)
    : (↑w'.out : Multiset Line) + me'.unprinted env base + me.heldLines env backend base
      = ↑w.out + me.unprinted env base + me'.heldLines env backend base := by
  cases step with
  | initFailed at_ => cases noFailure
  | chunkFailed at_ fails => cases noFailure
  | chunkStopped at_ stopped =>
      rw [ok.stopNoted stopped] at noLimit
      cases noLimit
  | nextChunk at_ going more =>
      simp only [Worker.unprinted, Worker.heldLines, Worker.held, at_, List.map_append,
        List.sum_append, List.map_singleton, List.sum_singleton, chunkLines, add_zero]
      abel
  | @visit idx entry rest at_ going =>
      have lines : (visitEntry env me.cx entry).2 = entryLines env base entry := by
        rw [visitEntry_lines, ok.fixed]
      simp only [Worker.unprinted, Worker.heldLines, Worker.held, at_, lines, List.flatMap_cons,
        ← Multiset.coe_add, add_assoc]
  | chunkScanned at_ going done finishes =>
      cases done <;>
        simp [Worker.unprinted, Worker.heldLines, Worker.held, at_]
  | initialised at_ | noChunk at_ ended | setDone at_ =>
      simp only [Worker.unprinted, Worker.heldLines, Worker.held, at_]

/-- While nothing failed and no limit was reached: what was printed, with what the workers
have still to print, is what they have taken.
-/
structure Printing (env : Platform) (backend : Backend) (base : LfuCtx) (threads : Nat)
    (s : Pool)
    : Prop where
  covering : Covering env backend base s
  few : s.nthreads ≤ threads
  printed
    : s.w.failed = false
      → s.w.limited = false
      → (↑s.w.out : Multiset Line)
          + ∑ i ∈ Finset.range threads, (s.workers i).unprinted env base
        = ∑ i ∈ Finset.range threads, (s.workers i).heldLines env backend base

theorem Printing.begin (o : LfuOpts) (ops : LfuTargetOps) (now : Int) (threads : Nat)
    : Printing env backend (workerCtx o ops now) threads (Pool.begin o ops now threads) where
  covering := .begin o ops now threads
  few := Nat.le_refl _
  printed _ _ := by simp [Pool.begin, Worker.unprinted, Worker.heldLines, Worker.held]

theorem Pool.launch_unprinted (env : Platform) (backend : Backend) (base : LfuCtx) (s : Pool)
    {i : Nat} (unborn : (s.workers i).pc = .unborn) (j : Nat)
    : (s.launch i j).unprinted env base = (s.workers j).unprinted env base
      ∧ (s.launch i j).heldLines env backend base
        = (s.workers j).heldLines env backend base := by
  by_cases same : j = i
  · subst same
    simp [Pool.launch, Worker.unprinted, Worker.heldLines, Worker.held, unborn]
  · simp [Pool.launch, same]

theorem Covering.next_unborn {s : Pool} (inv : Covering env backend base s) {i : Nat}
    (beyond : s.launched ≤ i)
    : (s.workers i).pc = .unborn := by
  by_contra born
  exact Nat.not_lt.mpr beyond (inv.started i born)

theorem Printing.workerStep {threads : Nat} {s : Pool} {i : Nat} {w : LfuWork} {me : Worker}
    (inv : Printing env backend base threads s)
    (after
      : Covering env backend base { s with w, workers := Function.update s.workers i me })
    (step : WorkerStep env backend s.w (s.workers i) w me)
    : Printing env backend base threads
        { s with w, workers := Function.update s.workers i me } where
  covering := after
  few := inv.few
  printed noFailure noLimit := by
    have grows := step.grows
    have before := inv.printed (by grind [grows.failed]) (by grind [grows.limited])
    have moved := step.printed (inv.covering.workers i) noFailure noLimit
    have started : i ∈ Finset.range threads := by
      have launched : s.launched ≤ s.nthreads := by
        unfold Pool.launched
        split
        · exact Nat.zero_le _
        · rename_i at_
          exact inv.covering.within _ at_
        · exact Nat.le_refl _
        · exact Nat.le_refl _
      have born := inv.covering.started i step.live.1
      exact Finset.mem_range.mpr (Nat.lt_of_lt_of_le born (launched.trans inv.few))
    have unprinted := sum_update_add (Worker.unprinted env base) s.workers started me
    have held := sum_update_add (Worker.heldLines env backend base) s.workers started me
    dsimp only
    generalize ∑ j ∈ Finset.range threads,
      Worker.unprinted env base (Function.update s.workers i me j) = left at unprinted ⊢
    generalize ∑ j ∈ Finset.range threads,
      Worker.heldLines env backend base (Function.update s.workers i me j) = right at held ⊢
    -- the two sums change by what this worker's share of them does
    have total
        : (↑w.out + left) + ((s.workers i).unprinted env base
            + (s.workers i).heldLines env backend base)
          = right + ((s.workers i).unprinted env base
            + (s.workers i).heldLines env backend base) := by
      calc (↑w.out + left) + ((s.workers i).unprinted env base
              + (s.workers i).heldLines env backend base)
          = (left + (s.workers i).unprinted env base)
              + (↑w.out + (s.workers i).heldLines env backend base) := by abel
        _ = ((↑w.out + me.unprinted env base + (s.workers i).heldLines env backend base)
              + ∑ j ∈ Finset.range threads, (s.workers j).unprinted env base) := by
            rw [unprinted]
            abel
        _ = (↑s.w.out + ∑ j ∈ Finset.range threads, (s.workers j).unprinted env base)
              + ((s.workers i).unprinted env base + me.heldLines env backend base) := by
            rw [moved]
            abel
        _ = (right + (s.workers i).heldLines env backend base)
              + (s.workers i).unprinted env base := by
            rw [before, held]
            abel
        _ = _ := by abel
    exact add_right_cancel total

theorem Printing.step {threads : Nat} {s s' : Pool} {event : PoolEvent} (fresh : base.base = base)
    (inv : Printing env backend base threads s) (step : PoolStep env backend s event s')
    : Printing env backend base threads s' := by
  have after := inv.covering.step fresh step
  have launched {i : Nat} (next : s.launched = i) {main : MainPc}
      (after : Covering env backend base { s with workers := s.launch i, main })
      : Printing env backend base threads { s with workers := s.launch i, main } := by
    have same := Pool.launch_unprinted env backend base s
      (inv.covering.next_unborn (Nat.le_of_eq next))
    refine ⟨after, inv.few, fun noFailure noLimit => ?_⟩
    simp only [same]
    exact inv.printed noFailure noLimit
  cases step with
  | noMemory at_ => exact ⟨after, inv.few, fun noFailure => by cases noFailure⟩
  | runSingle at_ single => exact launched (by simp [Pool.launched, at_]) after
  | runSeveral at_ several => exact ⟨after, inv.few, inv.printed⟩
  | create at_ more => exact launched (by simp [Pool.launched, at_]) after
  | createFailed at_ more =>
      exact ⟨after, Nat.le_of_lt (Nat.lt_of_lt_of_le more inv.few), inv.printed⟩
  | created at_ all => exact ⟨after, inv.few, inv.printed⟩
  | join at_ finished => exact ⟨after, inv.few, inv.printed⟩
  | worker i step => exact inv.workerStep after step

theorem Printing.run {o : LfuOpts} {ops : LfuTargetOps} {now : Int} {threads : Nat}
    {trace : List PoolEvent} {s : Pool}
    (run : Run (PoolStep env backend) (Pool.begin o ops now threads) trace s)
    : Printing env backend (workerCtx o ops now) threads s :=
  run.invariant (Printing env backend (workerCtx o ops now) threads) (.begin o ops now threads)
    (fun _ _ _ inv step => inv.step rfl step)

/-- A scan that came back without a failure or a limit has printed the lines of the chunks
handed out, in some order.
-/
theorem Printing.perm {threads : Nat} {s : Pool} {rc : Int}
    (inv : Printing env backend base threads s) (returned : s.main = .returned rc)
    (noFailure : s.w.failed = false) (noLimit : s.w.limited = false)
    : s.w.out.Perm ((List.range s.w.cursor).flatMap (chunkLines env backend base)) := by
  have printed := inv.printed noFailure noLimit
  have covering := inv.covering
  have nothing : ∑ i ∈ Finset.range threads, (s.workers i).unprinted env base = 0 := by
    refine Finset.sum_eq_zero fun i _ => ?_
    rcases covering.quiet rc returned i with unborn | finished
    · simp only [Worker.unprinted, unborn]
    · simp only [Worker.unprinted, finished]
  have only (i : Nat) (holds : (s.workers i).held ≠ []) : i ∈ Finset.range threads := by
    rw [covering.held_eq_scanned returned] at holds
    by_contra beyond
    have few := inv.few
    rw [Finset.mem_range] at beyond
    exact holds (covering.scanned_nil returned (by omega))
  have taken := covering.dispatched.sum_held (covering.covered noFailure noLimit) _ only
    fun idx => (↑(chunkLines env backend base idx) : Multiset Line)
  rw [nothing, add_zero] at printed
  refine Multiset.coe_eq_coe.mp (printed.trans (taken.trans ?_))
  induction s.w.cursor with
  | zero => rfl
  | succ cursor ih =>
      rw [Finset.sum_range_succ, ih, List.range_succ, List.flatMap_append, ← Multiset.coe_add,
        List.flatMap_singleton]

end LfuScan.Core
