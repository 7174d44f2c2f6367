import LfuScan.ScanDevice.Workers
import Mathlib.Algebra.BigOperators.Pi
import Mathlib.Algebra.Order.BigOperators.Group.Finset

/-! What the counters of a sweep say, whether it is stopped or not. -/

namespace LfuScan.ScanDevice

open LfuScan.Lustre LfuScan.Foundations LfuScan.Filter

variable {host : Host} {dev : ScanDev} {backend : Backend}

/-- The classes a sweep hands over: the target's own subject matter, and the rest for a caller
who asked for it.
-/
def ScanDev.shows (dev : ScanDev) (cls : ScanClass) : Prop :=
  cls = dev.sdVisible ∨ dev.sdFlags &&& scanFInternal ≠ 0

instance (dev : ScanDev) (cls : ScanClass) : Decidable (dev.shows cls) :=
  inferInstanceAs (Decidable (_ ∨ _))

def scanClasses : List ScanClass :=
  [.visible, .internal, .ostObj, .agent, .noLma, .bad, .orphan]

def LlapiScanStats.classes (st : LlapiScanStats) : Nat :=
  (scanClasses.map fun cls => st (.cls cls)).sum

/-- What became of the objects seen. -/
def LlapiScanStats.fates (st : LlapiScanStats) : Nat :=
  st .filtered + st .skipped + st.classes

/-- How many objects are of a class the sweep hands over. -/
def LlapiScanStats.shown (dev : ScanDev) (st : LlapiScanStats) : Nat :=
  ((scanClasses.filter fun cls => dev.shows cls).map fun cls => st (.cls cls)).sum

theorem bump_apply (st : LlapiScanStats) (counter other : Counter)
    : st.bump counter other = st other + if other = counter then 1 else 0 := by
  rw [LlapiScanStats.bump, Pi.add_apply, Pi.single_apply]

theorem sum_bump (st : LlapiScanStats) (cls : ScanClass) (among : List ScanClass)
    : (among.map fun other => st.bump (.cls cls) (.cls other)).sum
      = (among.map fun other => st (.cls other)).sum + among.count cls := by
  induction among with
  | nil => rfl
  | cons other rest ih =>
      rw [List.map_cons, List.sum_cons, ih, List.map_cons, List.sum_cons, bump_apply,
        List.count_cons]
      simp only [Counter.cls.injEq, beq_iff_eq]
      omega

theorem scanClasses_count (cls : ScanClass) : scanClasses.count cls = 1 := by
  cases cls <;> rfl

theorem fates_cls (st : LlapiScanStats) (cls : ScanClass)
    : (st.bump (.cls cls)).fates = st.fates + 1 := by
  rw [LlapiScanStats.fates, LlapiScanStats.classes, sum_bump, scanClasses_count]
  simp only [bump_apply, reduceCtorEq, if_false, add_zero]
  rfl

theorem shown_cls (st : LlapiScanStats) (cls : ScanClass)
    : (st.bump (.cls cls)).shown dev = st.shown dev + if dev.shows cls then 1 else 0 := by
  rw [LlapiScanStats.shown, sum_bump]
  split
  · rename_i shows
    rw [List.count_filter (by simpa using shows), scanClasses_count]
    rfl
  · rename_i hides
    rw [List.count_eq_zero.mpr fun member => hides (by simpa using (List.mem_filter.mp member).2)]
    rfl

/-- The counters that are not of a class. -/
theorem bump_plain (st : LlapiScanStats) {counter : Counter} (plain : ∀ cls, counter ≠ .cls cls)
    (cls : ScanClass)
    : st.bump counter (.cls cls) = st (.cls cls) := by
  rw [bump_apply, if_neg (Ne.symm (plain cls)), add_zero]

theorem shown_plain (st : LlapiScanStats) {counter : Counter}
    (plain : ∀ cls, counter ≠ .cls cls)
    : (st.bump counter).shown dev = st.shown dev := by
  simp only [LlapiScanStats.shown, bump_plain st plain]

theorem fates_plain (st : LlapiScanStats) {counter : Counter}
    (plain : ∀ cls, counter ≠ .cls cls)
    : (st.bump counter).fates
      = st.fates + if counter = .filtered ∨ counter = .skipped then 1 else 0 := by
  simp only [LlapiScanStats.fates, LlapiScanStats.classes, bump_plain st plain, bump_apply]
  cases counter <;> simp <;> omega

/-- A record is made of an object exactly if its class is handed over. -/
theorem sinkRecord_shows {buf left : ScanBuf} {obj : LlapiScanObj} {cls : ScanClass}
    {record : Option LlapiScanRec}
    (sinks : sinkRecord host dev buf obj = some (left, cls, record))
    : record.isSome ↔ dev.shows cls := by
  obtain ⟨lma, decodes⟩ := scanDecodeLma_inside obj
  simp only [sinkRecord, decodes, Option.bind_eq_bind, Option.bind_some] at sinks
  split at sinks
  · rename_i kept
    obtain ⟨_, rfl, rfl⟩ := sinks
    simpa [ScanDev.shows] using kept
  · rename_i shown
    simp only [Option.bind_eq_some_iff] at sinks
    obtain ⟨_, _, _, _, _, _, _, _, _, _, made⟩ := sinks
    obtain ⟨_, rfl, rfl⟩ := made
    simp only [Bool.and_eq_true, decide_eq_true_eq, beq_iff_eq, not_and] at shown
    simp only [Option.isSome_some, true_iff, ScanDev.shows]
    exact Classical.or_iff_not_imp_left.mpr shown

/-- How many of the objects a worker has seen have met their fate. One may be on its way; a
worker that stopped may have left one there.
-/
def ScanWorker.Settled (w : ScanShared) (me : ScanWorker) : Prop :=
  match me.pc with
  | .seen _ _ _ _ | .callFilter _ _ _ _ | .readXattrs _ _ _ =>
      me.swStats .seen = me.swStats.fates + 1
  | .setStop _ | .failed _ | .setError _ =>
      me.swStats.fates ≤ me.swStats .seen ∧ me.swStats .seen ≤ me.swStats.fates + 1
  | .returned =>
      me.swStats.fates ≤ me.swStats .seen ∧ me.swStats .seen ≤ me.swStats.fates + 1
      ∧ (w.sdStopRc ≠ 0 ∨ w.sdError ≠ 0 ∨ me.swStats .seen = me.swStats.fates)
  | _ => me.swStats .seen = me.swStats.fates

/-- A record counted and about to be handed over. -/
def WorkerPc.handing : WorkerPc → Nat
  | .callCb _ _ _ => 1
  | _ => 0

/-- What the counters of a worker say at any time. -/
structure ScanWorker.Balanced (dev : ScanDev) (w : ScanShared) (handed : Nat) (me : ScanWorker)
    : Prop where
  settled : me.Settled w
  shown : me.swStats .emitted = me.swStats.shown dev
  emitted : me.swStats .emitted = handed + me.pc.handing

theorem ScanWorker.Balanced.moves {w w' : ScanShared} {handed : Nat} {me : ScanWorker}
    (balanced : me.Balanced dev w handed) (moves : w.Moves w')
    : me.Balanced dev w' handed where
  settled := by
    have settled := balanced.settled
    unfold ScanWorker.Settled at settled ⊢
    cases pc : me.pc with
    | returned =>
        rw [pc] at settled
        exact ⟨settled.1, settled.2.1, settled.2.2.imp moves.stop_ne (·.imp moves.error_ne id)⟩
    | _ => simpa only [pc] using settled
  shown := balanced.shown
  emitted := balanced.emitted

theorem WorkerStep.balanced {w w' : ScanShared} {me me' : ScanWorker} {event : SweepEvent}
    {handed : Nat} {trace : List SweepLabel}
    (step : WorkerStep host dev backend w me event w' me') (placed : me.Placed backend w trace)
    (balanced : me.Balanced dev w handed)
    : me'.Balanced dev w' (handed + event.record.toList.length) := by
  obtain ⟨settled, shown, emitted⟩ := balanced
  have closed {seen fates : Nat} (equal : seen = fates) : fates ≤ seen ∧ seen ≤ fates + 1 := by
    omega
  have open_ {seen fates : Nat} (equal : seen = fates + 1)
      : fates ≤ seen ∧ seen ≤ fates + 1 := by
    omega
  unfold ScanWorker.Settled at settled
  unfold ScanWorker.Placed at placed
  cases step with
  | notStopped at_ going | notErrored at_ going | within at_ inside | take at_ | more at_ ends
  | done at_ ends | lower at_ | overtaken at_ above moved | unfiltered at_ going none
  | filtered at_ going some | passed at_ by_ answer | unrecorded at_ going | handed at_ =>
      simp only [at_, WorkerPc.handing] at settled emitted
      exact ⟨settled, shown, emitted⟩
  | broke at_ ends | handedLast at_ rc stop =>
      simp only [at_, WorkerPc.handing] at settled emitted
      exact ⟨closed settled, shown, emitted⟩
  | halted at_ stop | refused at_ by_ answer =>
      simp only [at_, WorkerPc.handing] at settled emitted
      exact ⟨open_ settled, shown, emitted⟩
  | setStop at_ =>
      simp only [at_, WorkerPc.handing] at settled emitted
      exact ⟨settled, shown, emitted⟩
  | stopped at_ stop =>
      simp only [at_, WorkerPc.handing] at settled emitted
      exact ⟨⟨(closed settled).1, (closed settled).2, .inl stop⟩, shown, emitted⟩
  | errored at_ error =>
      simp only [at_, WorkerPc.handing] at settled emitted
      exact ⟨⟨(closed settled).1, (closed settled).2, .inr (.inl error)⟩, shown, emitted⟩
  | beyond at_ past | low at_ enough | swapped at_ above same =>
      simp only [at_, WorkerPc.handing] at settled emitted
      exact ⟨⟨(closed settled).1, (closed settled).2, .inr (.inr settled)⟩, shown, emitted⟩
  | recorded at_ stop =>
      simp only [at_, WorkerPc.handing] at settled emitted
      exact ⟨⟨settled.1, settled.2, .inl stop⟩, shown, emitted⟩
  | setError at_ =>
      simp only [at_, WorkerPc.handing] at settled emitted placed
      exact ⟨⟨settled.1, settled.2, .inr (.inl (swapZero_ne placed.ne_zero))⟩, shown, emitted⟩
  | @skip _ why early _ at_ =>
      simp only [at_, WorkerPc.handing] at settled emitted
      constructor <;>
        simp [ScanWorker.Settled, scanSinkSkip, early, bump_apply, fates_plain, shown_plain,
          WorkerPc.handing, SweepEvent.record] <;>
        omega
  | see at_ =>
      simp only [at_, WorkerPc.handing] at settled emitted
      constructor <;>
        simp [ScanWorker.Settled, bump_apply, fates_plain, shown_plain, WorkerPc.handing,
          SweepEvent.record] <;>
        omega
  | dropped at_ by_ answer =>
      simp only [at_, WorkerPc.handing] at settled emitted
      constructor <;>
        simp [ScanWorker.Settled, bump_apply, fates_plain, shown_plain, WorkerPc.handing,
          SweepEvent.record] <;>
        omega
  | unreadable at_ =>
      simp only [at_, WorkerPc.handing] at settled emitted
      constructor <;>
        simp [ScanWorker.Settled, scanSinkSkip, bump_apply, fates_plain, shown_plain,
          WorkerPc.handing, SweepEvent.record] <;>
        omega
  | keptBack at_ sinks =>
      have hidden := mt (sinkRecord_shows sinks).mpr (by decide)
      simp only [at_, WorkerPc.handing] at settled emitted
      constructor <;>
        simp [ScanWorker.Settled, bump_apply, fates_cls, shown_cls, hidden, WorkerPc.handing,
          SweepEvent.record] <;>
        omega
  | found at_ sinks =>
      have shows := (sinkRecord_shows sinks).mp rfl
      simp only [at_, WorkerPc.handing] at settled emitted
      constructor <;>
        simp [ScanWorker.Settled, bump_apply, fates_plain, shown_plain, fates_cls, shown_cls,
          shows, WorkerPc.handing, SweepEvent.record] <;>
        omega

/-- What the counters say all through a sweep. -/
structure Accounted (host : Host) (dev : ScanDev) (backend : Backend) (nworkers : Nat)
    (stats : LlapiScanStats) (trace : List SweepLabel) (s : Sweep)
    : Prop where
  sweeping : Sweeping host dev backend nworkers stats trace s
  balanced : ∀ i, (s.workers i).Balanced dev s.w (handedBy i trace).length

section Accounts

variable {nworkers : Nat} {stats : LlapiScanStats} {trace : List SweepLabel} {s s' : Sweep}

theorem Accounted.begin {bufs : Nat → ScanBuf} (some : 0 < nworkers)
    (sized : ∀ i, (bufs i).Sized host)
    : Accounted host dev backend nworkers stats [] (.begin dev bufs) where
  sweeping := .begin some sized
  balanced _ := ⟨rfl, by simp [Sweep.begin, LlapiScanStats.shown], rfl⟩

theorem ScanWorker.Balanced.launch {w : ScanShared} {handed : Nat} {me : ScanWorker}
    (balanced : me.Balanced dev w handed) (idle : me.pc = .idle)
    : ScanWorker.Balanced dev w handed { me with pc := .loadStop } := by
  obtain ⟨settled, shown, emitted⟩ := balanced
  simp only [ScanWorker.Settled, idle, WorkerPc.handing] at settled emitted
  exact ⟨settled, shown, emitted⟩

theorem Accounted.launched (inv : Accounted host dev backend nworkers stats trace s) {i : Nat}
    (idle : (s.workers i).pc = .idle) (j : Nat)
    : (s.launch i j).Balanced dev s.w (handedBy j (trace ++ [.main])).length := by
  rw [handedBy_main]
  exact (Function.forall_update_iff s.workers fun j worker =>
      ScanWorker.Balanced dev s.w (handedBy j trace).length worker).mpr
    ⟨(inv.balanced i).launch idle, fun j _ => inv.balanced j⟩ j

theorem Accounted.step (inv : Accounted host dev backend nworkers stats trace s)
    {label : SweepLabel} (step : SweepStep host dev backend nworkers stats s label s')
    : Accounted host dev backend nworkers stats (trace ++ [label]) s' := by
  have sweeping := inv.sweeping.step step
  have staffed := inv.sweeping.staffed
  cases step with
  | @worker i event w me step =>
      refine ⟨sweeping, (Function.forall_update_iff s.workers fun j worker =>
          ScanWorker.Balanced dev w (handedBy j (trace ++ [.worker i event])).length worker).mpr
        ⟨?_, fun j other => ?_⟩⟩
      · rw [handedBy_self, List.length_append]
        exact step.balanced (inv.sweeping.workers i).placed (inv.balanced i)
      · rw [handedBy_other trace i event other]
        exact (inv.balanced j).moves step.moves
  | create at_ more => exact ⟨sweeping, inv.launched (staffed.next_idle at_).2⟩
  | created at_ => exact ⟨sweeping, inv.launched (staffed.next_idle at_).1⟩
  | join at_ finished =>
      refine ⟨sweeping, fun i => ?_⟩
      rw [handedBy_main]
      exact inv.balanced i

theorem Accounted.run (some : 0 < nworkers) {bufs : Nat → ScanBuf}
    (sized : ∀ i, (bufs i).Sized host)
    (run : Run (SweepStep host dev backend nworkers stats) (.begin dev bufs) trace s)
    : Accounted host dev backend nworkers stats trace s :=
  run.traceInvariant (Accounted host dev backend nworkers stats) (.begin some sized)
    (fun _ _ _ _ inv step => inv.step step)

end Accounts

/-- The counters of a worker that has returned, or was never started. -/
theorem ScanWorker.Balanced.finished {w : ScanShared} {handed : Nat} {me : ScanWorker}
    (balanced : me.Balanced dev w handed) (finished : me.pc = .idle ∨ me.pc = .returned)
    : me.swStats .emitted = handed
      ∧ me.swStats.fates ≤ me.swStats .seen
      ∧ me.swStats .seen ≤ me.swStats.fates + 1
      ∧ (w.sdStopRc = 0 → w.sdError = 0 → me.swStats .seen = me.swStats.fates) := by
  obtain ⟨settled, _, emitted⟩ := balanced
  rcases finished with at_ | at_ <;>
    simp only [ScanWorker.Settled, at_, WorkerPc.handing, add_zero] at settled emitted
  · exact ⟨emitted, by omega, by omega, fun _ _ => settled⟩
  · refine ⟨emitted, settled.1, settled.2.1, fun stop error => ?_⟩
    exact (settled.2.2.resolve_left (absurd stop)).resolve_left (absurd error)

theorem fates_sum (counts : Nat → LlapiScanStats) (n : Nat)
    : (∑ i ∈ Finset.range n, counts i).fates = ∑ i ∈ Finset.range n, (counts i).fates := by
  have fates_add (a b : LlapiScanStats) : (a + b).fates = a.fates + b.fates := by
    simp only [LlapiScanStats.fates, LlapiScanStats.classes, Pi.add_apply, List.sum_map_add]
    omega
  induction n with
  | zero => rfl
  | succ n ih => rw [Finset.sum_range_succ, Finset.sum_range_succ, fates_add, ih]

theorem shown_sum (counts : Nat → LlapiScanStats) (n : Nat)
    : (∑ i ∈ Finset.range n, counts i).shown dev
      = ∑ i ∈ Finset.range n, (counts i).shown dev := by
  have shown_add (a b : LlapiScanStats) : (a + b).shown dev = a.shown dev + b.shown dev := by
    simp only [LlapiScanStats.shown, Pi.add_apply, List.sum_map_add]
  induction n with
  | zero => simp [LlapiScanStats.shown]
  | succ n ih => rw [Finset.sum_range_succ, Finset.sum_range_succ, shown_add, ih]

/-- However a sweep ends, it has counted as emitted what it handed over, which are the objects
of the classes it hands over; every object that was filtered, skipped or classed was seen, and
at most one for each worker was seen and left. A sweep that returns zero left none.
-/
theorem sweep_accounting {nworkers : Nat} {trace : List SweepLabel} {s : Sweep}
    {bufs : Nat → ScanBuf} {rc : Int} {out : LlapiScanStats} (some : 0 < nworkers)
    (sized : ∀ i, (bufs i).Sized host)
    (run : Run (SweepStep host dev backend nworkers 0) (.begin dev bufs) trace s)
    (returned : s.main = .returned rc out)
    : out .emitted = (handedOver trace).length
      ∧ out .emitted = out.shown dev
      ∧ out.fates ≤ out .seen
      ∧ out .seen ≤ out.fates + nworkers
      ∧ (rc = 0 → out .seen = out.fates) := by
  have inv := Accounted.run some sized run
  have staffed := inv.sweeping.staffed
  unfold Sweep.Staffed at staffed
  rw [returned] at staffed
  obtain ⟨_, finished, _, result, merged⟩ := staffed
  rw [Sweep.merged_eq, zero_add] at merged
  have settled (i : Nat) := (inv.balanced i).finished (finished i)
  have total (counter : Counter)
      : out counter = ∑ i ∈ Finset.range nworkers, (s.workers i).swStats counter := by
    rw [merged, Finset.sum_apply]
  have fates : out.fates = ∑ i ∈ Finset.range nworkers, (s.workers i).swStats.fates := by
    rw [merged, fates_sum]
  have handed : (handedOver trace).length
      = ∑ i ∈ Finset.range nworkers, (handedBy i trace).length := by
    simpa using congrArg Multiset.card inv.sweeping.handed
  refine ⟨?_, ?_, ?_, ?_, fun zero => ?_⟩
  · rw [total, handed]
    exact Finset.sum_congr rfl fun i _ => (settled i).1
  · rw [total, merged, shown_sum]
    exact Finset.sum_congr rfl fun i _ => (inv.balanced i).shown
  · rw [total, fates]
    exact Finset.sum_le_sum fun i _ => (settled i).2.1
  · rw [total, fates]
    refine (Finset.sum_le_sum fun i _ => (settled i).2.2.1).trans_eq ?_
    rw [Finset.sum_add_distrib, Finset.sum_const, Finset.card_range, smul_eq_mul, mul_one]
  · obtain ⟨stop, error⟩ := ScanShared.result_zero (result.symm.trans zero)
    rw [total, fates]
    exact Finset.sum_congr rfl fun i _ => (settled i).2.2.2 stop error

/-- Two workers: what they counted is merged. -/
theorem sweep_accounting_twoWorkers
    : ∃ trace s out,
        Run (SweepStep oneHost namingDev twoObjects 2 0)
          (.begin namingDev fun _ => .cleared oneHost) trace s
        ∧ s.main = .returned 0 out
        ∧ out .emitted = 2
        ∧ out .seen = out.fates := by
  obtain ⟨trace, s, out, run, returned, _, handed⟩ := twoObjects_sweep
  obtain ⟨emitted, _, _, _, settled⟩ := sweep_accounting Nat.two_pos
    (fun _ => ScanBuf.cleared_sized oneHost) run returned
  exact ⟨trace, s, out, run, returned, emitted.trans handed, settled rfl⟩

end LfuScan.ScanDevice
