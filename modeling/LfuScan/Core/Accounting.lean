import LfuScan.Core.Completeness
import Mathlib.Data.UInt

/-! What the counters of a scan add up to. Every exit an entry can take counts it once in
each group of counters, and sums of balanced counters are balanced.
-/

namespace LfuScan.Core

open LfuScan.Lustre LfuScan.Filter LfuScan.Foundations

/-- `st->counter++`, for the counter that is one in `own`. -/
def bump (cx : LfuCtx) (own : LfuStats) : LfuCtx := { cx with st := lfuStatsMerge cx.st own }

theorem bump_bump (cx : LfuCtx) (first second : LfuStats)
    : bump (bump cx first) second = bump cx (first + second) :=
  congrArg (fun st => { cx with st }) (add_assoc cx.st first second)

/-- The prefilter counts what it rejects, and asks nothing of the counters. -/
theorem lfuPrefilter_eq (cx base : LfuCtx) (same : cx.base = base.base) (rec : LfuRec)
    : lfuPrefilter cx rec
      = if (lfuPrefilter base rec).1 then (true, cx) else (false, bump cx { filtered := 1 }) := by
  have survives : (lfuPrefilter base rec).1 = (lfuPrefilter cx rec).1 := by
    rw [lfuPrefilter_survives, lfuPrefilter_survives]
    exact (congrArg
      (fun cx => !lfuFilterActive cx.o.filter || cx.ops.pushdown
        || lfuFilterTier0 cx.o.filter rec cx.now) same).symm
  have rejected : { cx with st := { cx.st with filtered := cx.st.filtered + 1 } }
      = bump cx { filtered := 1 } := by
    refine congrArg (fun st => { cx with st }) ?_
    ext <;> simp [lfuStatsMerge]
  rw [survives]
  unfold lfuPrefilter
  split
  · rfl
  · split
    · rfl
    · rw [rejected]
      rfl

theorem visitEntry_own (env : Platform) (cx : LfuCtx) (own : LfuStats)
    : visitEntry env cx { own } = (bump cx own, []) :=
  rfl

/-- An object the backend hands over is rejected and counted, or goes to the core. -/
theorem visitEntry_object (env : Platform) (cx : LfuCtx) (own : LfuStats) (rec : LfuRec)
    (haveLma : Bool) (eas : Option LfuEas)
    : visitEntry env cx { own, object := some (rec, haveLma, eas) }
      = if (lfuPrefilter cx rec).1 then
          lfuObject env (bump cx own) rec haveLma eas
        else
          (bump (bump cx own) { filtered := 1 }, []) := by
  change visitObject env (bump cx own) rec haveLma eas = _
  unfold visitObject
  rw [lfuPrefilter_eq (bump cx own) cx rfl]
  cases (lfuPrefilter cx rec).1 <;> rfl

-----------------------------------------------------------------------------------------
-- Groups of counters
-----------------------------------------------------------------------------------------

/-- All classified objects. -/
def LfuStats.clsSum (st : LfuStats) : UInt64 :=
  st.cls .visible + st.cls .internal + st.cls .ostObj + st.cls .agent + st.cls .noLma
    + st.cls .bad

/-- The objects of the classes that are shown. -/
def LfuStats.shown (o : LfuOpts) (st : LfuStats) : UInt64 :=
  st.cls .visible + if o.showInternal then st.cls .internal else 0

/-- The shown objects that were emitted, rejected, or left undecided and not asked for. -/
def LfuStats.settled (o : LfuOpts) (st : LfuStats) : UInt64 :=
  st.emitted + st.filtered1 + if o.emitUnknown then 0 else st.unknown

/-- The counters only a backend touches. -/
def LfuStats.backendOnly (st : LfuStats) : LfuStats :=
  {
    st with
    cls := fun _ => 0
    emitted := 0
    filtered := 0
    filtered1 := 0
    unknown := 0
    tier2Read := 0
  }

/-- A stage of the pipeline that leaves classes, tier 0 and the backend's counters alone. -/
structure Judged (before after : LfuStats) : Prop where
  cls : after.cls = before.cls
  filtered : after.filtered = before.filtered
  backend : after.backendOnly = before.backendOnly

theorem Judged.trans {first second third : LfuStats} (left : Judged first second)
    (right : Judged second third)
    : Judged first third :=
  ⟨right.cls.trans left.cls, right.filtered.trans left.filtered,
    right.backend.trans left.backend⟩

section Object

variable (env : Platform) (cx : LfuCtx) (rec : LfuRec) (eas : Option LfuEas)

theorem emitObject_judged (m : LfuMatch)
    : Judged cx.st (emitObject cx rec m).1.st
      ∧ (emitObject cx rec m).1.st.settled cx.o = cx.st.settled cx.o + 1 := by
  have counted : (emitObject cx rec m).1.st = { cx.st with emitted := cx.st.emitted + 1 } := by
    simp only [emitObject]
    split <;> rfl
  rw [counted]
  refine ⟨⟨rfl, rfl, rfl⟩, ?_⟩
  simp only [LfuStats.settled]
  grind

/-- Every verdict settles the object once, whether it is then emitted or not. -/
theorem judgeObject_judged (notPushed : cx.ops.pushdown = false)
    : Judged cx.st (judgeObject env cx rec eas).1.st
      ∧ (judgeObject env cx rec eas).1.st.settled cx.o = cx.st.settled cx.o + 1 := by
  unfold judgeObject
  split
  · refine ⟨⟨rfl, rfl, rfl⟩, ?_⟩
    simp only [LfuStats.settled]
    grind
  · exact emitObject_judged cx rec _
  · rw [if_neg (by simp [notPushed])]
    simp only
    split
    · rename_i wanted
      -- with `--emit-unknown` the undecided are not counted apart
      have emitted :=
        emitObject_judged { cx with st := { cx.st with unknown := cx.st.unknown + 1 } } rec
          .unknown
      have raised : Judged cx.st { cx.st with unknown := cx.st.unknown + 1 } := ⟨rfl, rfl, rfl⟩
      refine ⟨raised.trans emitted.1, emitted.2.trans ?_⟩
      simp only [LfuStats.settled, wanted, if_true]
    · rename_i unwanted
      refine ⟨⟨rfl, rfl, rfl⟩, ?_⟩
      simp only [LfuStats.settled, unwanted, if_false, Bool.false_eq_true]
      grind

theorem decodeObject_judged
    : Judged cx.st (decodeObject cx rec eas).1.st
      ∧ (decodeObject cx rec eas).1.st.settled cx.o = cx.st.settled cx.o
      ∧ (decodeObject cx rec eas).1.base = cx.base := by
  obtain ⟨reads, state⟩ := decodeObject_state cx rec eas
  rw [state]
  exact ⟨⟨rfl, rfl, rfl⟩, rfl, rfl⟩

theorem countClass_shown (c : LfuClass)
    : (countClass cx c).st.clsSum = cx.st.clsSum + 1
      ∧ (countClass cx c).st.shown cx.o
        = cx.st.shown cx.o + if hiddenClass cx.o c then 0 else 1 := by
  cases c <;> cases showInternal : cx.o.showInternal <;>
    simp [countClass, LfuStats.clsSum, LfuStats.shown, hiddenClass, showInternal] <;> grind

/-- An object is settled exactly if its class is shown. -/
theorem showObject_judged (c : LfuClass) (notPushed : cx.ops.pushdown = false)
    : Judged cx.st (showObject env cx c rec eas).1.st
      ∧ (showObject env cx c rec eas).1.st.settled cx.o
        = cx.st.settled cx.o + if hiddenClass cx.o c then 0 else 1 := by
  simp only [showObject]
  split
  · exact ⟨⟨rfl, rfl, rfl⟩, (UInt64.add_zero _).symm⟩
  · exact judgeObject_judged env cx rec eas notPushed

/-- One object is classified once, and settled as often as it is shown. -/
theorem lfuObject_balance (haveLma : Bool) (notPushed : cx.ops.pushdown = false)
    : let st := (lfuObject env cx rec haveLma eas).1.st
      st.filtered = cx.st.filtered ∧ st.backendOnly = cx.st.backendOnly
      ∧ st.clsSum = cx.st.clsSum + 1
      ∧ st.shown cx.o + cx.st.settled cx.o = cx.st.shown cx.o + st.settled cx.o := by
  simp only [lfuObject]
  generalize lfuClassify rec haveLma = c
  obtain ⟨classified, visible⟩ := countClass_shown cx c
  obtain ⟨decoded, same, base⟩ := decodeObject_judged (countClass cx c) rec eas
  generalize decodeObject (countClass cx c) rec eas = parts at decoded same base ⊢
  obtain ⟨after, record⟩ := parts
  have o : after.o = cx.o := (congrArg LfuCtx.o base :)
  have ops : after.ops = cx.ops := (congrArg LfuCtx.ops base :)
  obtain ⟨judged, settled⟩ := showObject_judged env after record eas c (by rw [ops, notPushed])
  have whole := decoded.trans judged
  generalize (showObject env after c record eas).1.st = st at judged settled whole ⊢
  have sum : st.clsSum = (countClass cx c).st.clsSum := by
    simp only [LfuStats.clsSum, whole.cls]
  have shown : st.shown cx.o = (countClass cx c).st.shown cx.o := by
    simp only [LfuStats.shown, whole.cls]
  have before : (countClass cx c).st.settled cx.o = cx.st.settled cx.o := rfl
  have unchanged : after.st.settled cx.o = cx.st.settled cx.o := same.trans before
  rw [o, unchanged] at settled
  refine ⟨whole.filtered, whole.backend, sum.trans classified, ?_⟩
  rw [shown, visible, settled]
  grind

end Object

theorem backendOnly_add (left right : LfuStats)
    : (left + right).backendOnly = left.backendOnly + right.backendOnly := by
  ext <;> simp [stats_add_eq, lfuStatsMerge, LfuStats.backendOnly]

/-- Where only the backend has counted, nothing is classified, rejected or settled. -/
theorem backendOnly_clear {own : LfuStats} (mine : own.backendOnly = own) (o : LfuOpts)
    : own.filtered = 0 ∧ own.clsSum = 0 ∧ own.shown o = 0 ∧ own.settled o = 0 := by
  rw [← mine]
  refine ⟨rfl, rfl, ?_, ?_⟩
  · simp [LfuStats.shown, LfuStats.backendOnly]
  · simp [LfuStats.settled, LfuStats.backendOnly]

/-- A rejected object is counted once, and neither shown nor settled. -/
theorem rejected_balance {own : LfuStats} (mine : own.backendOnly = own) (o : LfuOpts)
    : let st := own + { filtered := 1 }
      st.backendOnly = own ∧ st.filtered + st.clsSum = 1 ∧ st.shown o = st.settled o := by
  obtain ⟨unfiltered, unclassified, unshown, unsettled⟩ := backendOnly_clear mine o
  have classes : (own + { filtered := 1 } : LfuStats).cls = own.cls := by
    funext c
    simp [stats_add_eq, lfuStatsMerge]
  have sum : (own + { filtered := 1 } : LfuStats).clsSum = own.clsSum := by
    simp only [LfuStats.clsSum, classes]
  have shown : (own + { filtered := 1 } : LfuStats).shown o = own.shown o := by
    simp only [LfuStats.shown, classes]
  have settled : (own + { filtered := 1 } : LfuStats).settled o = own.settled o := by
    simp [LfuStats.settled, stats_add_eq, lfuStatsMerge]
  refine ⟨?_, ?_, ?_⟩
  · rw [backendOnly_add, mine]
    exact add_zero own
  · rw [sum, unclassified]
    change own.filtered + 1 + 0 = 1
    rw [unfiltered]
    rfl
  · rw [shown, settled, unshown, unsettled]

/-- A loop that is not stopped adds what its entries add. -/
theorem visitEntries_counts (env : Platform) {cx : LfuCtx} {entries : List Visit}
    (going : (visitEntries env cx entries).1.stop = false)
    : (visitEntries env cx entries).1.st
      = cx.st + (entries.map (visitStats env cx.base)).sum := by
  induction entries generalizing cx with
  | nil => exact (add_zero cx.st).symm
  | cons entry rest ih =>
      by_cases stopped : cx.stop = true
      · rw [visitEntries_stopped env stopped, stopped] at going
        cases going
      · obtain ⟨base, st⟩ := visitEntry_counts env (rfl : cx.base.base = cx.base) entry cx rfl
        simp only [visitEntries, stopped, Bool.false_eq_true, if_false] at going ⊢
        rw [ih going, base, st, List.map_cons, List.sum_cons, add_assoc]

section Sums

variable (env : Platform) {base : LfuCtx}

theorem visitStats_own (fresh : base.base = base) (own : LfuStats)
    : visitStats env base { own } = own := by
  have empty : base.st = 0 := by rw [← fresh]; rfl
  rw [visitStats, visitEntry_own]
  exact (congrArg (· + own) empty).trans (zero_add own)

/-- An object handed over with nothing but the backend's counters is classified or rejected,
and settled as often as it is shown.
-/
theorem visitStats_object (fresh : base.base = base) (notPushed : base.ops.pushdown = false)
    (own : LfuStats) (mine : own.backendOnly = own) (rec : LfuRec) (haveLma : Bool)
    (eas : Option LfuEas)
    : let st := visitStats env base { own, object := some (rec, haveLma, eas) }
      st.backendOnly = own ∧ st.filtered + st.clsSum = 1
      ∧ st.shown base.o = st.settled base.o := by
  have empty : base.st = 0 := by rw [← fresh]; rfl
  have start : (bump base own).st = own := (congrArg (· + own) empty).trans (zero_add own)
  obtain ⟨unfiltered, unclassified, unshown, unsettled⟩ := backendOnly_clear mine base.o
  simp only [visitStats, visitEntry_object]
  split
  · obtain ⟨filtered, backend, classified, balanced⟩ :=
      lfuObject_balance env (bump base own) rec eas haveLma notPushed
    rw [start] at filtered backend classified balanced
    generalize (lfuObject env (bump base own) rec haveLma eas).1.st = st at *
    have options : (bump base own).o = base.o := rfl
    rw [options] at balanced
    refine ⟨backend.trans mine, ?_, ?_⟩
    · rw [filtered, classified, unfiltered, unclassified]
      rfl
    · rw [unshown, unsettled] at balanced
      simpa using balanced
  · have counted : (bump (bump base own) { filtered := 1 }).st = own + { filtered := 1 } :=
      congrArg (· + _) start
    rw [counted]
    exact rejected_balance mine base.o

end Sums

-----------------------------------------------------------------------------------------
-- Sums over a scan
-----------------------------------------------------------------------------------------

/-- A counter, or a sum of counters: what merging adds up. -/
abbrev Counter := LfuStats →+ UInt64

def Counter.seen : Counter where
  toFun st := st.seen
  map_zero' := rfl
  map_add' _ _ := rfl

/-- The inodes that were read, and those that could not be. -/
def Counter.seenOrBad : Counter where
  toFun st := st.seen + st.csumBad
  map_zero' := rfl
  map_add' left right := by
    simp only [stats_add_eq, lfuStatsMerge]
    grind

def Counter.inUse : Counter where
  toFun st := st.inUse
  map_zero' := rfl
  map_add' _ _ := rfl

/-- The exits of an ldiskfs inode that is not reserved. -/
def Counter.inodeExits : Counter where
  toFun st := st.freeIno + st.deleted + st.validateBad + st.inUse
  map_zero' := rfl
  map_add' left right := by
    simp only [stats_add_eq, lfuStatsMerge]
    grind

/-- What becomes of an object handed to the core. -/
def Counter.passed : Counter where
  toFun st := st.filtered + st.clsSum
  map_zero' := rfl
  map_add' left right := by
    simp only [stats_add_eq, lfuStatsMerge, LfuStats.clsSum]
    grind

/-- The exits of a ZFS object. -/
def Counter.objectExits : Counter where
  toFun st := st.notZnode + st.saFail + st.filtered + st.clsSum
  map_zero' := rfl
  map_add' left right := by
    simp only [stats_add_eq, lfuStatsMerge, LfuStats.clsSum]
    grind

def Counter.shown (o : LfuOpts) : Counter where
  toFun st := st.shown o
  map_zero' := by simp [stats_zero_eq, LfuStats.shown]
  map_add' left right := by
    simp only [stats_add_eq, lfuStatsMerge, LfuStats.shown]
    grind

def Counter.settled (o : LfuOpts) : Counter where
  toFun st := st.settled o
  map_zero' := by simp [stats_zero_eq, LfuStats.settled]
  map_add' left right := by
    simp only [stats_add_eq, lfuStatsMerge, LfuStats.settled]
    grind

/-- Two counters that differ on every entry by its weight differ on a scan by the weight of
the entries of its chunks.
-/
theorem chunks_weighted {ι : Type} {env : Platform} {backend : Backend} {base : LfuCtx}
    {entries : Nat → List ι} {visit : ι → Visit}
    (chunks : ∀ idx, backend.chunk idx = (entries idx).map visit) (f g : Counter)
    (weight : ι → UInt64)
    (each : ∀ entry, f (visitStats env base (visit entry))
      = weight entry + g (visitStats env base (visit entry)))
    (bound : Nat)
    : f (∑ idx ∈ Finset.range bound, chunkStats env backend base idx)
      = ∑ idx ∈ Finset.range bound, ((entries idx).map weight).sum
        + g (∑ idx ∈ Finset.range bound, chunkStats env backend base idx) := by
  have chunk (idx : Nat)
      : f (chunkStats env backend base idx)
        = ((entries idx).map weight).sum + g (chunkStats env backend base idx) := by
    rw [chunkStats, chunks]
    induction entries idx with
    | nil => simp
    | cons entry rest ih =>
        simp only [List.map_cons, List.sum_cons, map_add, each, ih]
        grind
  rw [map_sum, map_sum, ← Finset.sum_add_distrib]
  exact Finset.sum_congr rfl fun idx _ => chunk idx

/-- Two counters that agree on every entry agree on every scan. -/
theorem chunks_balanced {ι : Type} {env : Platform} {backend : Backend} {base : LfuCtx}
    {entries : Nat → List ι} {visit : ι → Visit}
    (chunks : ∀ idx, backend.chunk idx = (entries idx).map visit) (f g : Counter)
    (each : ∀ entry, f (visitStats env base (visit entry)) = g (visitStats env base (visit entry)))
    (bound : Nat)
    : f (∑ idx ∈ Finset.range bound, chunkStats env backend base idx)
      = g (∑ idx ∈ Finset.range bound, chunkStats env backend base idx) := by
  have weighted :=
    chunks_weighted chunks f g (fun _ => 0) (fun entry => by rw [each, zero_add]) bound
  simpa using weighted

/-- Without a limit no worker is ever stopped by one. -/
theorem unlimited_run {env : Platform} {backend : Backend} {o : LfuOpts} {ops : LfuTargetOps}
    {now : Int} {threads : Nat} {trace : List PoolEvent} {s : Pool} (noLimit : o.limit = 0)
    (run : Run (PoolStep env backend) (Pool.begin o ops now threads) trace s)
    : s.w.limited = false := by
  have going : s.w.limited = false
      ∧ ∀ i, (s.workers i).cx.o.limit = 0 ∧ (s.workers i).cx.stop = false := by
    refine run.invariant
      (fun s => s.w.limited = false
        ∧ ∀ i, (s.workers i).cx.o.limit = 0 ∧ (s.workers i).cx.stop = false)
      ⟨rfl, fun i => ⟨noLimit, rfl⟩⟩ (fun s _ next inv step => ?_)
    obtain ⟨unlimited, workers⟩ := inv
    -- starting a worker leaves its context alone
    have launched (s : Pool)
        (workers : ∀ i, (s.workers i).cx.o.limit = 0 ∧ (s.workers i).cx.stop = false) (i j : Nat)
        : (s.launch i j).cx.o.limit = 0 ∧ (s.launch i j).cx.stop = false := by
      by_cases this : j = i
      · subst this
        simpa [Pool.launch] using workers j
      · simpa [Pool.launch, this] using workers j
    cases step with
    | runSingle _ _ => exact ⟨unlimited, launched s workers 0⟩
    | create _ _ => exact ⟨unlimited, launched s workers _⟩
    | worker i step =>
        have others {me : Worker} (mine : me.cx.o.limit = 0 ∧ me.cx.stop = false) (j : Nat)
            : (Function.update s.workers i me j).cx.o.limit = 0
              ∧ (Function.update s.workers i me j).cx.stop = false := by
          by_cases this : j = i
          · subst this
            simpa using mine
          · simpa [this] using workers j
        cases step with
        | visit at_ going =>
            obtain ⟨limit, stop, _⟩ := visitEntry_kept env (workers i).1 going _
            exact ⟨by simp [unlimited, stop], others ⟨limit, stop⟩⟩
        | _ => exact ⟨unlimited, others (workers i)⟩
    | _ => exact ⟨unlimited, workers⟩
  exact going.1

section Alone

variable {env : Platform} {backend : Backend} {cx : LfuCtx} {w w' : LfuWork} {me next : Worker}

/-- A scan by a single worker. -/
def alone (cx : LfuCtx) (w : LfuWork) (me : Worker) : Pool :=
  { w, nthreads := 1, workers := Function.update (fun _ => { cx }) 0 me, main := .join }

theorem alone_step (step : WorkerStep env backend w me w' next)
    : PoolStep env backend (alone cx w me) .silent (alone cx w' next) := by
  have here : (alone cx w me).workers 0 = me := by simp [alone]
  have taken : PoolStep env backend (alone cx w me) .silent _ :=
    .worker 0 (show WorkerStep env backend w ((alone cx w me).workers 0) w' next by rwa [here])
  simpa [alone] using taken

/-- The worker visits the entries of its chunk one after the other. -/
theorem alone_visits {start : Pool} {trace : List PoolEvent} {cursor idx : Nat} {out : List Line}
    {mine : LfuCtx} {rest : List Visit}
    (run
      : Run (PoolStep env backend) start trace
          (alone cx { cursor, out } { pc := .scanChunk idx rest, cx := mine }))
    (noLimit : mine.o.limit = 0) (going : mine.stop = false)
    : ∃ trace out visited,
        Run (PoolStep env backend) start trace
          (alone cx { cursor, out } { pc := .scanChunk idx [], cx := visited })
        ∧ visited.stop = false := by
  induction rest generalizing trace out mine with
  | nil => exact ⟨trace, out, mine, run, going⟩
  | cons entry rest ih =>
      obtain ⟨limit, stop, _⟩ := visitEntry_kept env noLimit going entry
      have run := run.snoc (alone_step (.visit rfl going))
      simp only [stop, Bool.or_false] at run
      exact ih run limit stop

/-- A target whose first chunk is its last can be scanned to the end. -/
theorem oneChunk_run (o : LfuOpts) (ops : LfuTargetOps) (now : Int) (noLimit : o.limit = 0)
    (finishes : backend.mayFinish 0 true)
    : ∃ trace s, Run (PoolStep env backend) (Pool.begin o ops now 1) trace s
        ∧ s.main = .returned 0 ∧ s.w.cursor = 1 := by
  have run
      : Run (PoolStep env backend) (Pool.begin o ops now 1) []
          (Pool.begin o ops now 1) :=
    .nil
  have run
      : Run (PoolStep env backend) (Pool.begin o ops now 1) _
          (alone (workerCtx o ops now) {} { pc := .init, cx := workerCtx o ops now }) :=
    run.snoc (.runSingle rfl rfl)
  have run := (run.snoc (alone_step (.initialised rfl))).snoc
    (alone_step (.nextChunk rfl rfl rfl))
  obtain ⟨trace, out, visited, run, going⟩ :=
    alone_visits run (show (workerCtx o ops now).o.limit = 0 from noLimit) rfl
  have run := (run.snoc (alone_step (.chunkScanned rfl going true finishes))).snoc
    (alone_step (.setDone rfl))
  have run := run.snoc (.join rfl (fun i below => by
    match i, below with
    | 0, _ => rfl))
  exact ⟨_, _, run, rfl, rfl⟩

end Alone

end LfuScan.Core
