import LfuScan.ScanDevice.Workers
import Mathlib.Algebra.BigOperators.Pi
import Mathlib.Tactic.Abel

/-! What a sweep delivers. While nobody stops it and no chunk fails, what the workers counted
and handed over, with what they have still to come across in their chunks, is what the chunks
hold that they took.
-/

namespace LfuScan.ScanDevice

open LfuScan.Lustre LfuScan.Foundations LfuScan.Filter

/-- What is counted, and the records handed over. -/
abbrev Tally := LlapiScanStats × Multiset LlapiScanRec

def counted (counter : Counter) : Tally := (Pi.single counter 1, 0)

def delivered (record : LlapiScanRec) : Tally := (0, {record})

theorem bump_counted (st : LlapiScanStats) (counter : Counter)
    : ((st.bump counter, 0) : Tally) = (st, 0) + counted counter := by
  simp only [LlapiScanStats.bump, counted, Prod.mk_add_mk, add_zero]

section Tallies

variable (host : Host) (dev : ScanDev) (backend : Backend)

def filterAnswer (bare : LlapiScanObj) : Int :=
  match dev.sdFilter with
  | none => 0
  | some filter => filter (scanRecObj host dev bare)

/-- What becomes of an object past the pre-filter. -/
def sunkTally (full : Option LlapiScanObj) : Tally :=
  match full with
  | none => counted .skipped
  | some obj =>
      match objectSink host dev obj with
      | (cls, none) => counted (.cls cls)
      | (cls, some record) => counted (.cls cls) + counted .emitted + delivered record

/-- What becomes of an object in the pre-filter. -/
def judgedTally (bare : LlapiScanObj) (full : Option LlapiScanObj) : Tally :=
  if 0 < filterAnswer host dev bare then counted .filtered else sunkTally host dev full

def itemTally : Item → Tally
  | .unread _ _ => counted .seen + counted .skipped
  | .object bare full => counted .seen + judgedTally host dev bare full

def itemsTally (items : List Item) : Tally :=
  (items.map (itemTally host dev)).sum

/-- A chunk below the number of chunks; nothing is beyond. -/
def chunkTally (idx : Nat) : Tally :=
  if idx < dev.sdTgtInfo.ttChunks then itemsTally host dev (backend.chunk idx) else 0

/-- What a worker has still to count and to hand over of its chunk. -/
def WorkerPc.pending : WorkerPc → Tally
  | .loadEnd idx => chunkTally host dev backend idx
  | .scan _ rest => itemsTally host dev rest
  | .seen _ bare full rest => judgedTally host dev bare full + itemsTally host dev rest
  | .callFilter _ bare full rest => judgedTally host dev bare full + itemsTally host dev rest
  | .readXattrs _ full rest => sunkTally host dev full + itemsTally host dev rest
  | .callCb _ record rest => delivered record + itemsTally host dev rest
  | _ => 0

/-- What a step takes on. -/
def SweepEvent.taken : SweepEvent → Tally
  | .took idx => chunkTally host dev backend idx
  | _ => 0

/-- What a step hands over. -/
def SweepEvent.delivered : SweepEvent → Tally
  | .handed record _ => ScanDevice.delivered record
  | _ => 0

end Tallies

variable {host : Host} {dev : ScanDev} {backend : Backend}

theorem itemsTally_cons (item : Item) (rest : List Item)
    : itemsTally host dev (item :: rest) = itemTally host dev item + itemsTally host dev rest := by
  simp only [itemsTally, List.map_cons, List.sum_cons]

-----------------------------------------------------------------------------------------
-- One worker
-----------------------------------------------------------------------------------------

/-- Nothing is left at the end, or beyond. -/
def ScanShared.Silent (host : Host) (dev : ScanDev) (backend : Backend) (w : ScanShared) : Prop :=
  ∀ idx, w.sdEnd ≤ idx → chunkTally host dev backend idx = 0

/-- The end is lowered only by a backend that has seen it. -/
theorem WorkerStep.silent {w w' : ScanShared} {me me' : ScanWorker} {event : SweepEvent}
    {trace : List SweepLabel} (step : WorkerStep host dev backend w me event w' me')
    (sound : backend.DoneSound dev.sdTgtInfo.ttChunks) (placed : me.Placed backend w trace)
    (silent : w.Silent host dev backend)
    : w'.Silent host dev backend := by
  unfold ScanWorker.Placed at placed
  cases step with
  | @swapped idx seen at_ above same =>
      intro later past
      rw [at_] at placed
      unfold chunkTally
      split
      · rename_i below
        rw [sound idx placed.2.1 later past below]
        rfl
      · rfl
  | _ => exact silent

/-- A step moves what it counts and hands over from what was still to come. -/
theorem WorkerStep.tallied {w w' : ScanShared} {me me' : ScanWorker} {event : SweepEvent}
    {trace : List SweepLabel} (step : WorkerStep host dev backend w me event w' me')
    (sized : me.swBuf.Sized host) (placed : me.Placed backend w trace)
    (few : w.sdEnd ≤ dev.sdTgtInfo.ttChunks) (silent : w.Silent host dev backend)
    : me'.CutShort w'
      ∨ (me'.swStats, 0) + event.delivered + me'.pc.pending host dev backend
        = (me.swStats, 0) + me.pc.pending host dev backend
          + event.taken host dev backend := by
  unfold ScanWorker.Placed at placed
  cases step with
  | stopped at_ stop => exact .inl (.inl stop)
  | errored at_ error => exact .inl (.inr (.inl error))
  | halted at_ stop => exact .inl (.inl stop)
  | refused at_ by_ answer => exact .inl (.inr (.inr trivial))
  | handedLast at_ rc stop => exact .inl (.inr (.inr trivial))
  | setStop at_ => exact .inl (.inr (.inr trivial))
  | broke at_ ends => exact .inl (.inr (.inr trivial))
  | recorded at_ stop => exact .inl (.inl stop)
  | unrecorded at_ going => exact .inl (.inr (.inr trivial))
  | setError at_ =>
      rw [at_] at placed
      exact .inl (.inr (.inl (swapZero_ne placed.ne_zero)))
  | beyond at_ past =>
      refine .inr ?_
      simp only [at_, WorkerPc.pending, silent _ past, SweepEvent.delivered,
        SweepEvent.taken, add_zero]
  | within at_ inside =>
      refine .inr ?_
      simp only [at_, WorkerPc.pending, chunkTally, SweepEvent.delivered, SweepEvent.taken,
        if_pos (Nat.lt_of_lt_of_le inside few), add_zero]
  | @skip _ _ early _ at_ =>
      refine .inr ?_
      simp only [at_, WorkerPc.pending, scanSinkSkip, if_pos early, bump_counted,
        itemsTally_cons, itemTally, SweepEvent.delivered, SweepEvent.taken]
      abel
  | see at_ =>
      refine .inr ?_
      simp only [at_, WorkerPc.pending, bump_counted, itemsTally_cons, itemTally,
        SweepEvent.delivered, SweepEvent.taken]
      abel
  | @dropped _ bare _ _ _ at_ by_ answer =>
      have judged : 0 < filterAnswer host dev bare := by rw [filterAnswer, by_]; exact answer
      refine .inr ?_
      simp only [at_, WorkerPc.pending, bump_counted, judgedTally, if_pos judged,
        SweepEvent.delivered, SweepEvent.taken]
      abel
  | unfiltered at_ going none =>
      refine .inr ?_
      simp only [at_, WorkerPc.pending, judgedTally, filterAnswer, none, Int.lt_irrefl, if_false,
        SweepEvent.delivered, SweepEvent.taken, add_zero]
  | @passed _ bare _ _ _ at_ by_ answer =>
      have judged : ¬ 0 < filterAnswer host dev bare := by
        rw [filterAnswer, by_]
        exact answer ▸ Int.lt_irrefl _
      refine .inr ?_
      simp only [at_, WorkerPc.pending, judgedTally, if_neg judged, SweepEvent.delivered,
        SweepEvent.taken, add_zero]
  | unreadable at_ =>
      refine .inr ?_
      simp only [at_, WorkerPc.pending, scanSinkSkip, ne_eq, not_true_eq_false, if_false,
        bump_counted, sunkTally, SweepEvent.delivered, SweepEvent.taken]
      abel
  | @keptBack _ obj _ _ _ at_ sinks =>
      obtain ⟨_, sunk, _⟩ := sinkRecord_objectSink sized dev obj
      rw [sinks] at sunk
      have same := (Prod.mk.inj (Option.some.inj sunk)).2
      refine .inr ?_
      simp only [at_, WorkerPc.pending, bump_counted, sunkTally, ← same, SweepEvent.delivered,
        SweepEvent.taken]
      abel
  | @found _ obj _ _ _ _ at_ sinks =>
      obtain ⟨_, sunk, _⟩ := sinkRecord_objectSink sized dev obj
      rw [sinks] at sunk
      have same := (Prod.mk.inj (Option.some.inj sunk)).2
      refine .inr ?_
      simp only [at_, WorkerPc.pending, bump_counted, sunkTally, ← same, SweepEvent.delivered,
        SweepEvent.taken]
      abel
  | take at_ =>
      refine .inr ?_
      simp only [at_, WorkerPc.pending, SweepEvent.delivered, SweepEvent.taken, add_zero]
  | handed at_ =>
      refine .inr ?_
      simp only [at_, WorkerPc.pending, SweepEvent.delivered, SweepEvent.taken]
      abel
  | more at_ ends | done at_ ends =>
      refine .inr ?_
      simp only [at_, WorkerPc.pending, itemsTally, List.map_nil, List.sum_nil,
        SweepEvent.delivered, SweepEvent.taken]
  | notStopped at_ going | notErrored at_ going | filtered at_ going some | lower at_
  | low at_ enough | swapped at_ above same | overtaken at_ above moved =>
      refine .inr ?_
      simp only [at_, WorkerPc.pending, SweepEvent.delivered, SweepEvent.taken, add_zero]

/-- A worker's counters and the records it handed over. -/
def ScanWorker.tally (i : Nat) (trace : List SweepLabel) (me : ScanWorker) : Tally :=
  (me.swStats, ↑(handedBy i trace))

/-- What the chunks hold that a worker took. -/
def takenTally (host : Host) (dev : ScanDev) (backend : Backend) (i : Nat)
    (trace : List SweepLabel)
    : Tally :=
  ((takenBy i trace).map (chunkTally host dev backend)).sum

theorem ScanWorker.tally_self (trace : List SweepLabel) (i : Nat) (event : SweepEvent)
    (me : ScanWorker)
    : me.tally i (trace ++ [.worker i event])
      = (me.swStats, 0) + event.delivered + ((0, ↑(handedBy i trace)) : Tally) := by
  rw [ScanWorker.tally, handedBy_self, ← Multiset.coe_add]
  cases event <;>
    simp [SweepEvent.record, SweepEvent.delivered, delivered, add_comm]

theorem takenTally_self (trace : List SweepLabel) (i : Nat) (event : SweepEvent)
    : takenTally host dev backend i (trace ++ [.worker i event])
      = takenTally host dev backend i trace + event.taken host dev backend := by
  rw [takenTally, takenBy_self, List.map_append, List.sum_append]
  cases event <;> simp [SweepEvent.chunk, SweepEvent.taken, takenTally]

-----------------------------------------------------------------------------------------
-- The sweep
-----------------------------------------------------------------------------------------

/-- What a worker counted and handed over, with what is still to come, is what it took. -/
def ScanWorker.Tallied (host : Host) (dev : ScanDev) (backend : Backend) (w : ScanShared)
    (trace : List SweepLabel) (i : Nat) (me : ScanWorker)
    : Prop :=
  me.CutShort w
  ∨ me.tally i trace + me.pc.pending host dev backend = takenTally host dev backend i trace

section Workers

variable {w w' : ScanShared} {trace : List SweepLabel} {i : Nat} {me me' : ScanWorker}
    {event : SweepEvent}

theorem ScanWorker.Tallied.step (tallied : me.Tallied host dev backend w trace i)
    (ok : WorkerOk host dev backend w trace i me) (few : w.sdEnd ≤ dev.sdTgtInfo.ttChunks)
    (silent : w.Silent host dev backend)
    (step : WorkerStep host dev backend w me event w' me')
    : me'.Tallied host dev backend w' (trace ++ [.worker i event]) i := by
  rcases tallied with cut | before
  · exact .inl (step.cutShort ok.placed cut)
  · rcases step.tallied ok.sized ok.placed few silent with cut | moved
    · exact .inl cut
    · refine .inr ?_
      have split
          : me.tally i trace = (me.swStats, 0) + ((0, ↑(handedBy i trace)) : Tally) := by
        simp only [ScanWorker.tally, Prod.mk_add_mk, add_zero, zero_add]
      rw [ScanWorker.tally_self, takenTally_self, ← before, split]
      calc _ = ((me'.swStats, 0) + event.delivered + me'.pc.pending host dev backend)
            + ((0, ↑(handedBy i trace)) : Tally) := by abel
        _ = _ := by rw [moved]; abel

/-- A step of another worker. -/
theorem ScanWorker.Tallied.other (tallied : me.Tallied host dev backend w trace i)
    (moves : w.Moves w') {j : Nat} (other : i ≠ j)
    : me.Tallied host dev backend w' (trace ++ [.worker j event]) i := by
  rw [ScanWorker.Tallied, ScanWorker.tally, takenTally, handedBy_other trace j event other,
    takenBy_other trace j event other]
  exact tallied.imp (·.moves moves) id

/-- A step of the sweep itself. -/
theorem ScanWorker.Tallied.main (tallied : me.Tallied host dev backend w trace i)
    : me.Tallied host dev backend w (trace ++ [.main]) i := by
  rw [ScanWorker.Tallied, ScanWorker.tally, takenTally, handedBy_main, takenBy_main]
  exact tallied

theorem ScanWorker.Tallied.launch (tallied : me.Tallied host dev backend w trace i)
    (idle : me.pc = .idle)
    : ScanWorker.Tallied host dev backend w trace i { me with pc := .loadStop } := by
  simp only [ScanWorker.Tallied, ScanWorker.CutShort, ScanWorker.tally, idle, WorkerPc.pending]
    at tallied ⊢
  exact tallied

end Workers

/-- What holds all through a sweep of a backend that knows its end. -/
structure Delivering (host : Host) (dev : ScanDev) (backend : Backend) (nworkers : Nat)
    (stats : LlapiScanStats) (trace : List SweepLabel) (s : Sweep)
    : Prop where
  sweeping : Sweeping host dev backend nworkers stats trace s
  silent : s.w.Silent host dev backend
  tallied : ∀ i, (s.workers i).Tallied host dev backend s.w trace i

section Steps

variable {nworkers : Nat} {stats : LlapiScanStats} {trace : List SweepLabel} {s : Sweep}

theorem Delivering.begin {bufs : Nat → ScanBuf} (some : 0 < nworkers)
    (sized : ∀ i, (bufs i).Sized host)
    : Delivering host dev backend nworkers stats [] (.begin dev bufs) where
  sweeping := .begin some sized
  silent _ past := if_neg (Nat.not_lt.mpr past)
  tallied _ := .inr rfl

theorem Delivering.launched (inv : Delivering host dev backend nworkers stats trace s) {i : Nat}
    (idle : (s.workers i).pc = .idle) (j : Nat)
    : (s.launch i j).Tallied host dev backend s.w (trace ++ [.main]) j :=
  (Function.forall_update_iff s.workers fun j worker =>
      ScanWorker.Tallied host dev backend s.w (trace ++ [.main]) j worker).mpr
    ⟨(inv.tallied i).main.launch idle, fun j _ => (inv.tallied j).main⟩ j

theorem Delivering.step (sound : backend.DoneSound dev.sdTgtInfo.ttChunks)
    (inv : Delivering host dev backend nworkers stats trace s) {label : SweepLabel} {s' : Sweep}
    (step : SweepStep host dev backend nworkers stats s label s')
    : Delivering host dev backend nworkers stats (trace ++ [label]) s' := by
  have sweeping := inv.sweeping.step step
  have staffed := inv.sweeping.staffed
  cases step with
  | @worker i event w me step =>
      have ok := inv.sweeping.workers i
      exact {
        sweeping
        silent := step.silent sound ok.placed inv.silent
        tallied := (Function.forall_update_iff s.workers fun j worker =>
            ScanWorker.Tallied host dev backend w (trace ++ [.worker i event]) j worker).mpr
          ⟨(inv.tallied i).step ok inv.sweeping.few inv.silent step, fun j other =>
            (inv.tallied j).other step.moves other⟩
      }
  | create at_ more => exact ⟨sweeping, inv.silent, inv.launched (staffed.next_idle at_).2⟩
  | created at_ => exact ⟨sweeping, inv.silent, inv.launched (staffed.next_idle at_).1⟩
  | join at_ finished => exact ⟨sweeping, inv.silent, fun i => (inv.tallied i).main⟩

theorem Delivering.run (sound : backend.DoneSound dev.sdTgtInfo.ttChunks) (some : 0 < nworkers)
    {bufs : Nat → ScanBuf} (sized : ∀ i, (bufs i).Sized host)
    (run : Run (SweepStep host dev backend nworkers stats) (.begin dev bufs) trace s)
    : Delivering host dev backend nworkers stats trace s :=
  run.traceInvariant (Delivering host dev backend nworkers stats) (.begin some sized)
    (fun _ _ _ _ inv step => inv.step sound step)

end Steps

-----------------------------------------------------------------------------------------
-- A sweep that returns zero
-----------------------------------------------------------------------------------------

/-- What a consumer is handed of an item. -/
def itemRecord (host : Host) (dev : ScanDev) : Item → Option LlapiScanRec
  | .unread _ _ => none
  | .object bare full =>
      if 0 < filterAnswer host dev bare then
        none
      else
        full.bind fun obj => (objectSink host dev obj).2

/-- What the counters gain by an item. -/
def itemCounts (host : Host) (dev : ScanDev) (item : Item) : LlapiScanStats :=
  (itemTally host dev item).1

theorem sunkTally_records (full : Option LlapiScanObj)
    : (sunkTally host dev full).2
      = ↑(full.bind fun obj => (objectSink host dev obj).2).toList := by
  cases full with
  | none => rfl
  | some obj =>
      rcases sunk : objectSink host dev obj with ⟨cls, _ | record⟩
      · simp [sunkTally, sunk, counted]
      · simp [sunkTally, sunk, counted, delivered]

theorem itemTally_records (item : Item)
    : (itemTally host dev item).2 = ↑(itemRecord host dev item).toList := by
  cases item with
  | unread why early => rfl
  | object bare full =>
      simp only [itemTally, judgedTally, itemRecord, Prod.snd_add]
      split
      · rfl
      · rw [sunkTally_records]
        exact zero_add _

theorem itemsTally_eq (items : List Item)
    : itemsTally host dev items
      = ((items.map (itemCounts host dev)).sum, ↑(items.filterMap (itemRecord host dev))) := by
  induction items with
  | nil => rfl
  | cons item rest ih =>
      rw [itemsTally_cons, ih]
      refine Prod.ext ?_ ?_
      · rw [List.map_cons, List.sum_cons]
        rfl
      · rw [Prod.snd_add, itemTally_records, Multiset.coe_add, List.filterMap_cons]
        cases itemRecord host dev item <;> rfl

/-- Everything on the target, chunk by chunk. -/
def Backend.items (backend : Backend) (chunks : Nat) : List Item :=
  (List.range chunks).flatMap backend.chunk

theorem sum_chunkTally (count : Nat) (few : count ≤ dev.sdTgtInfo.ttChunks)
    : ∑ idx ∈ Finset.range count, chunkTally host dev backend idx
      = itemsTally host dev (backend.items count) := by
  induction count with
  | zero => rfl
  | succ count ih =>
      rw [Finset.sum_range_succ, ih (Nat.le_of_succ_le few), chunkTally,
        if_pos (Nat.lt_of_succ_le few), Backend.items, Backend.items, List.range_succ,
        List.flatMap_append,
        List.flatMap_singleton, itemsTally, itemsTally, itemsTally, List.map_append,
        List.sum_append]

section Complete

variable {nworkers : Nat} {stats out : LlapiScanStats} {trace : List SweepLabel} {s : Sweep}

/-- Who has returned or was never started has counted all it took, unless the sweep was
stopped.
-/
theorem ScanWorker.Tallied.finished {w : ScanShared} {i : Nat} {me : ScanWorker}
    (tallied : me.Tallied host dev backend w trace i)
    (finished : me.pc = .idle ∨ me.pc = .returned) (stop : w.sdStopRc = 0) (error : w.sdError = 0)
    : me.tally i trace = takenTally host dev backend i trace := by
  rcases tallied with cut | tallied
  · exact absurd cut (ScanWorker.not_cutShort finished stop error)
  · rcases finished with at_ | at_ <;>
      simpa only [at_, WorkerPc.pending, add_zero] using tallied

/-- A sweep that returns zero has counted and handed over everything on the target. -/
theorem Delivering.complete (inv : Delivering host dev backend nworkers stats trace s)
    (returned : s.main = .returned 0 out)
    : ∑ i ∈ Finset.range nworkers, (s.workers i).tally i trace
      = itemsTally host dev (backend.items dev.sdTgtInfo.ttChunks) := by
  have staffed := inv.sweeping.staffed
  unfold Sweep.Staffed at staffed
  rw [returned] at staffed
  obtain ⟨caller, finished, later, result, _⟩ := staffed
  obtain ⟨stop, error⟩ := ScanShared.result_zero result.symm
  have drained := inv.sweeping.drained caller stop error
  have only (i : Nat) (took : takenBy i trace ≠ []) : i ∈ Finset.range nworkers := by
    by_contra beyond
    have beyond := Nat.not_lt.mp (mt Finset.mem_range.mpr beyond)
    exact took ((inv.sweeping.workers i).fresh (later i beyond)).1
  have few := inv.sweeping.few
  calc ∑ i ∈ Finset.range nworkers, (s.workers i).tally i trace
      = ∑ i ∈ Finset.range nworkers, takenTally host dev backend i trace :=
        Finset.sum_congr rfl fun i _ => (inv.tallied i).finished (finished i) stop error
    _ = ∑ idx ∈ Finset.range s.w.sdCursor, chunkTally host dev backend idx :=
        inv.sweeping.dispatched.sum_held inv.sweeping.covered _ only _
    _ = ∑ idx ∈ Finset.range s.w.sdEnd, chunkTally host dev backend idx :=
        (Finset.sum_subset (Finset.range_subset_range.mpr drained) fun idx _ beyond =>
          inv.silent idx (Nat.not_lt.mp (mt Finset.mem_range.mpr beyond))).symm
    _ = ∑ idx ∈ Finset.range dev.sdTgtInfo.ttChunks, chunkTally host dev backend idx :=
        Finset.sum_subset (Finset.range_subset_range.mpr few) fun idx _ beyond =>
          inv.silent idx (Nat.not_lt.mp (mt Finset.mem_range.mpr beyond))
    _ = _ := sum_chunkTally _ (Nat.le_refl _)

/-- The two halves of what was counted and handed over. -/
theorem Delivering.exact (inv : Delivering host dev backend nworkers stats trace s)
    (returned : s.main = .returned 0 out)
    : (handedOver trace).Perm
        ((backend.items dev.sdTgtInfo.ttChunks).filterMap (itemRecord host dev))
      ∧ out
        = stats
          + ((backend.items dev.sdTgtInfo.ttChunks).map (itemCounts host dev)).sum := by
  have staffed := inv.sweeping.staffed
  unfold Sweep.Staffed at staffed
  rw [returned] at staffed
  have complete := inv.complete returned
  rw [itemsTally_eq] at complete
  obtain ⟨counts, records⟩ := Prod.ext_iff.mp complete
  rw [Prod.fst_sum] at counts
  rw [Prod.snd_sum] at records
  constructor
  · exact Multiset.coe_eq_coe.mp (inv.sweeping.handed.trans records)
  · rw [staffed.2.2.2.2, Sweep.merged_eq]
    exact congrArg (stats + ·) counts

/-- A sweep that returns zero has handed over every record the target has for the consumer,
each once, and counted every object, however many workers there were and in whatever order
they ran.
-/
theorem sweep_exact (sound : backend.DoneSound dev.sdTgtInfo.ttChunks) (some : 0 < nworkers)
    {bufs : Nat → ScanBuf} (sized : ∀ i, (bufs i).Sized host)
    (run : Run (SweepStep host dev backend nworkers stats) (.begin dev bufs) trace s)
    (returned : s.main = .returned 0 out)
    : (handedOver trace).Perm
        ((backend.items dev.sdTgtInfo.ttChunks).filterMap (itemRecord host dev))
      ∧ out
        = stats
          + ((backend.items dev.sdTgtInfo.ttChunks).map (itemCounts host dev)).sum :=
  (Delivering.run sound some sized run).exact returned

/-- Two workers and three chunks, of which the second lowers the end. -/
theorem sweep_exact_twoWorkers
    : ∃ trace s out,
        Run (SweepStep oneHost namingDev twoObjects 2 0)
          (.begin namingDev fun _ => .cleared oneHost) trace s
        ∧ s.main = .returned 0 out
        ∧ s.w.sdEnd = 2
        ∧ (handedOver trace).length = 2
        ∧ (handedOver trace).Perm
          ((twoObjects.items 3).filterMap (itemRecord oneHost namingDev)) := by
  obtain ⟨trace, s, out, run, returned, lowered, handed⟩ := twoObjects_sweep
  exact ⟨trace, s, out, run, returned, lowered, handed,
    (sweep_exact (twoObjects_doneSound 3) Nat.two_pos
      (fun _ => ScanBuf.cleared_sized oneHost) run returned).1⟩

end Complete

end LfuScan.ScanDevice
