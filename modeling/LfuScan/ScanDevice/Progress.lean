import LfuScan.ScanDevice.Workers
import Mathlib.Algebra.Order.BigOperators.Group.Finset
import Mathlib.Algebra.BigOperators.Intervals

/-! A sweep returns. Each step of it, whoever makes it, takes something off what is left to do,
and until it has returned somebody can make a step.
-/

namespace LfuScan.ScanDevice

open LfuScan.Lustre LfuScan.Foundations LfuScan.Filter

variable {host : Host} {dev : ScanDev} {backend : Backend}

-----------------------------------------------------------------------------------------
-- What is left to do
-----------------------------------------------------------------------------------------

/-- The steps an item can take. -/
def Item.cost : Item → Nat
  | .unread _ _ => 1
  | .object _ _ => 5

def itemsCost (items : List Item) : Nat :=
  (items.map Item.cost).sum

section Costs

variable (dev : ScanDev) (backend : Backend)

/-- The rest of a chunk, with what may follow it: the end has to be lowered at most once for
each chunk there is.
-/
def restCost (rest : List Item) : Nat :=
  itemsCost rest + dev.sdTgtInfo.ttChunks + 7

def chunkCost (idx : Nat) : Nat :=
  if idx < dev.sdTgtInfo.ttChunks then restCost dev (backend.chunk idx) else 0

/-- What is left to do for a worker before it takes another chunk. -/
def WorkerPc.cost : WorkerPc → Nat
  | .idle => 4
  | .loadStop => 4
  | .loadError => 3
  | .fetchChunk => 2
  | .loadEnd idx => chunkCost dev backend idx + 1
  | .scan _ rest => restCost dev rest
  | .seen _ _ _ rest => restCost dev rest + 4
  | .callFilter _ _ _ rest => restCost dev rest + 3
  | .readXattrs _ _ rest => restCost dev rest + 2
  | .callCb _ _ rest => restCost dev rest + 1
  | .setStop _ => 3
  | .failed _ => 2
  | .setError _ => 1
  | .lowerEnd _ => dev.sdTgtInfo.ttChunks + 2
  | .swapEnd _ known => known + 1
  | .returned => 0

/-- The chunks nobody has taken. -/
def ScanShared.untaken (w : ScanShared) : Nat :=
  ∑ idx ∈ Finset.Ico w.sdCursor dev.sdTgtInfo.ttChunks, chunkCost dev backend idx

def SweepPc.cost (nworkers : Nat) : SweepPc → Nat
  | .create started => nworkers - started + 2
  | .run _ => 1
  | .returned _ _ => 0

/-- What is left to do in a sweep. -/
def Sweep.cost (nworkers : Nat) (s : Sweep) : Nat :=
  s.main.cost nworkers + s.w.untaken dev backend
    + ∑ i ∈ Finset.range nworkers, (s.workers i).pc.cost dev backend

end Costs

theorem itemsCost_cons (item : Item) (rest : List Item)
    : itemsCost (item :: rest) = item.cost + itemsCost rest := by
  simp only [itemsCost, List.map_cons, List.sum_cons]

theorem untaken_take (dev : ScanDev) (backend : Backend) (w : ScanShared)
    : ScanShared.untaken dev backend { w with sdCursor := w.sdCursor + 1 }
        + chunkCost dev backend w.sdCursor
      = w.untaken dev backend := by
  unfold ScanShared.untaken
  by_cases below : w.sdCursor < dev.sdTgtInfo.ttChunks
  · rw [Finset.sum_eq_sum_Ico_succ_bot below, Nat.add_comm]
  · rw [chunkCost, if_neg below, Finset.Ico_eq_empty_of_le (by dsimp only; omega),
      Finset.Ico_eq_empty_of_le (Nat.not_lt.mp below), Nat.add_zero]

/-- Each step of a worker is a step forward. -/
theorem WorkerStep.forward {w w' : ScanShared} {me me' : ScanWorker} {event : SweepEvent}
    {trace : List SweepLabel} (step : WorkerStep host dev backend w me event w' me')
    (placed : me.Placed backend w trace) (few : w.sdEnd ≤ dev.sdTgtInfo.ttChunks)
    : w'.untaken dev backend + me'.pc.cost dev backend + 1
      ≤ w.untaken dev backend + me.pc.cost dev backend := by
  unfold ScanWorker.Placed at placed
  cases step with
  | take at_ =>
      have taken := untaken_take dev backend w
      simp only [at_, WorkerPc.cost]
      omega
  | within at_ inside =>
      simp only [at_, WorkerPc.cost, chunkCost, if_pos (Nat.lt_of_lt_of_le inside few)]
      omega
  | skip at_ | see at_ =>
      simp only [at_, WorkerPc.cost, restCost, itemsCost_cons, Item.cost]
      omega
  | overtaken at_ above moved =>
      simp only [at_] at placed
      simp only [at_, WorkerPc.cost]
      omega
  | lower at_ =>
      simp only [at_, WorkerPc.cost]
      omega
  | more at_ ends | done at_ ends | broke at_ ends | refused at_ by_ answer
  | handedLast at_ rc stop | halted at_ stop =>
      simp only [at_, WorkerPc.cost, restCost]
      omega
  | setStop at_ | setError at_ | swapped at_ above same =>
      simp only [at_, WorkerPc.cost, ScanShared.untaken]
      omega
  | _ at_ =>
      simp only [at_, WorkerPc.cost]
      omega

section Sweeps

variable {nworkers : Nat} {stats : LlapiScanStats} {trace : List SweepLabel} {s s' : Sweep}

/-- Starting a worker leaves it with what it had to do. -/
theorem Sweep.launch_cost {i : Nat} (idle : (s.workers i).pc = .idle) (j : Nat)
    : (s.launch i j).pc.cost dev backend = (s.workers j).pc.cost dev backend := by
  by_cases same : j = i
  · subst same
    rw [Sweep.launch, Function.update_self, idle]
    rfl
  · rw [Sweep.launch, Function.update_of_ne same]

theorem SweepStep.forward {label : SweepLabel}
    (step : SweepStep host dev backend nworkers stats s label s')
    (inv : Sweeping host dev backend nworkers stats trace s)
    : s'.cost dev backend nworkers + 1 ≤ s.cost dev backend nworkers := by
  unfold Sweep.cost
  cases step with
  | create at_ more =>
      simp only [Sweep.launch_cost (inv.staffed.next_idle at_).2, at_, SweepPc.cost]
      omega
  | created at_ =>
      simp only [Sweep.launch_cost (inv.staffed.next_idle at_).1, at_, SweepPc.cost]
      omega
  | join at_ finished =>
      simp only [at_, SweepPc.cost]
      omega
  | @worker i event w me step =>
      obtain ⟨live, busy, _⟩ := step.live
      have member : i ∈ Finset.range nworkers :=
        Finset.mem_range.mpr (inv.staffed.running live busy).1
      have forward := step.forward (inv.workers i).placed inv.few
      have moved := sum_update_add (fun worker => worker.pc.cost dev backend) s.workers member me
      dsimp only at moved ⊢
      omega

/-- What is to do for a sweep in all. -/
def sweepCost (dev : ScanDev) (backend : Backend) (nworkers : Nat) : Nat :=
  5 * nworkers + 1 + ∑ idx ∈ Finset.range dev.sdTgtInfo.ttChunks, chunkCost dev backend idx

theorem Sweep.begin_cost (bufs : Nat → ScanBuf) (some : 0 < nworkers)
    : (Sweep.begin dev bufs).cost dev backend nworkers = sweepCost dev backend nworkers := by
  simp only [Sweep.cost, Sweep.begin, SweepPc.cost, ScanShared.untaken, WorkerPc.cost,
    Finset.sum_const, Finset.card_range, nsmul_eq_mul, Nat.cast_id, sweepCost,
    Nat.Ico_zero_eq_range]
  omega

-----------------------------------------------------------------------------------------
-- Somebody can always go on
-----------------------------------------------------------------------------------------

/-- A worker that runs can make a step. -/
theorem WorkerOk.enabled {w : ScanShared} {i : Nat} {me : ScanWorker}
    (ok : WorkerOk host dev backend w trace i me) (live : me.pc ≠ .idle)
    (busy : me.pc ≠ .returned)
    : ∃ event w' me', WorkerStep host dev backend w me event w' me' := by
  cases at_ : me.pc with
  | idle => exact absurd at_ live
  | returned => exact absurd at_ busy
  | loadStop =>
      by_cases stop : w.sdStopRc = 0
      · exact ⟨_, _, _, .notStopped at_ stop⟩
      · exact ⟨_, _, _, .stopped at_ stop⟩
  | loadError =>
      by_cases error : w.sdError = 0
      · exact ⟨_, _, _, .notErrored at_ error⟩
      · exact ⟨_, _, _, .errored at_ error⟩
  | fetchChunk => exact ⟨_, _, _, .take at_⟩
  | loadEnd idx =>
      rcases Nat.lt_or_ge idx w.sdEnd with inside | past
      · exact ⟨_, _, _, .within at_ inside⟩
      · exact ⟨_, _, _, .beyond at_ past⟩
  | scan idx rest =>
      rcases rest with _ | ⟨item, rest⟩
      · cases ends : backend.ends idx with
        | more => exact ⟨_, _, _, .more at_ ends⟩
        | done => exact ⟨_, _, _, .done at_ ends⟩
        | failed rc negative => exact ⟨_, _, _, .broke at_ ends⟩
      · cases item with
        | unread why early => exact ⟨_, _, _, .skip at_⟩
        | object bare full => exact ⟨_, _, _, .see at_⟩
  | seen idx bare full rest =>
      by_cases stop : w.sdStopRc = 0
      · cases filter : dev.sdFilter with
        | none => exact ⟨_, _, _, .unfiltered at_ stop filter⟩
        | some by_ => exact ⟨_, _, _, .filtered at_ stop (by rw [filter]; rfl)⟩
      · exact ⟨_, _, _, .halted at_ stop⟩
  | callFilter idx bare full rest =>
      obtain ⟨filter, by_⟩ := Option.isSome_iff_exists.mp (ok.filters idx bare full rest at_)
      rcases Int.lt_trichotomy (filter (scanRecObj host dev bare)) 0 with answer | answer | answer
      · exact ⟨_, _, _, .refused at_ by_ answer⟩
      · exact ⟨_, _, _, .passed at_ by_ answer⟩
      · exact ⟨_, _, _, .dropped at_ by_ answer⟩
  | readXattrs idx full rest =>
      cases full with
      | none => exact ⟨_, _, _, .unreadable at_⟩
      | some obj =>
          -- the sink stays inside the attributes and the worker's buffers
          obtain ⟨left, sinks, _⟩ := sinkRecord_objectSink ok.sized dev obj
          generalize objectSink host dev obj = sunk at sinks
          rcases sunk with ⟨cls, _ | record⟩
          · exact ⟨_, _, _, .keptBack at_ sinks⟩
          · exact ⟨_, _, _, .found at_ sinks⟩
  | callCb idx record rest => exact ⟨_, _, _, .handed at_⟩
  | setStop rc => exact ⟨_, _, _, .setStop at_⟩
  | failed rc =>
      by_cases stop : w.sdStopRc = 0
      · exact ⟨_, _, _, .unrecorded at_ stop⟩
      · exact ⟨_, _, _, .recorded at_ stop⟩
  | setError rc => exact ⟨_, _, _, .setError at_⟩
  | lowerEnd idx => exact ⟨_, _, _, .lower at_⟩
  | swapEnd idx seen =>
      rcases Nat.lt_or_ge (idx + 1) seen with above | enough
      · by_cases same : w.sdEnd = seen
        · exact ⟨_, _, _, .swapped at_ above same⟩
        · exact ⟨_, _, _, .overtaken at_ above same⟩
      · exact ⟨_, _, _, .low at_ enough⟩

theorem Sweeping.enabled (inv : Sweeping host dev backend nworkers stats trace s)
    (going : ∀ rc out, s.main ≠ .returned rc out)
    : ∃ label s', SweepStep host dev backend nworkers stats s label s' := by
  cases at_ : s.main with
  | create started => exact ⟨_, _, .created at_⟩
  | returned rc out => exact absurd at_ (going rc out)
  | run started =>
      by_cases finished : ∀ i < started, (s.workers i).pc = .returned
      · exact ⟨_, _, .join at_ finished⟩
      · simp only [not_forall] at finished
        obtain ⟨i, one, busy⟩ := finished
        have staffed := inv.staffed
        unfold Sweep.Staffed at staffed
        rw [at_] at staffed
        have live := mt (staffed.2 i).mp (Nat.not_le.mpr one)
        obtain ⟨event, w, me, step⟩ := (inv.workers i).enabled live busy
        exact ⟨_, _, .worker i step⟩

/-- No sweep makes more steps than there is to do, and one that can make no more has returned:
whatever the order of the steps, every sweep returns.
-/
theorem sweep_returns (some : 0 < nworkers) {bufs : Nat → ScanBuf}
    (sized : ∀ i, (bufs i).Sized host)
    (run : Run (SweepStep host dev backend nworkers stats) (.begin dev bufs) trace s)
    : trace.length ≤ sweepCost dev backend nworkers
      ∧ ((∀ label s', ¬ SweepStep host dev backend nworkers stats s label s')
          → ∃ rc out, s.main = .returned rc out) := by
  have inv : Sweeping host dev backend nworkers stats trace s
      ∧ trace.length + s.cost dev backend nworkers ≤ sweepCost dev backend nworkers := by
    refine run.traceInvariant
      (fun trace s => Sweeping host dev backend nworkers stats trace s
        ∧ trace.length + s.cost dev backend nworkers ≤ sweepCost dev backend nworkers)
      ⟨.begin some sized, ?_⟩ fun before state label next inv step => ⟨inv.1.step step, ?_⟩
    · rw [Sweep.begin_cost bufs some, List.length_nil, Nat.zero_add]
    · have forward := step.forward inv.1
      have budget := inv.2
      rw [List.length_append, List.length_singleton]
      omega
  refine ⟨Nat.le_of_add_right_le inv.2, fun stuck => ?_⟩
  by_contra going
  obtain ⟨label, next, step⟩ := inv.1.enabled fun rc out at_ => going ⟨rc, out, at_⟩
  exact stuck label next step

theorem sweep_returns_twoWorkers
    : ∃ trace s out,
        Run (SweepStep oneHost namingDev twoObjects 2 0)
          (.begin namingDev fun _ => .cleared oneHost) trace s
        ∧ s.main = .returned 0 out
        ∧ trace.length ≤ sweepCost namingDev twoObjects 2 := by
  obtain ⟨trace, s, out, run, returned, _⟩ := twoObjects_sweep
  exact ⟨trace, s, out, run, returned,
    (sweep_returns Nat.two_pos (fun _ => ScanBuf.cleared_sized oneHost) run).1⟩

end Sweeps

end LfuScan.ScanDevice
