import LfuScan.Foundations.Transition
import LfuScan.Ring.Wire
import Mathlib.Data.UInt

/-! The parallel enumeration harness (`lfu_par.c`). Worker threads take fixed chunks of the
object numbers from a shared cursor and walk each with an iterator of their own; what they
count goes into shared totals.
-/

namespace LfuScan.Par

open LfuScan.Lustre LfuScan.Ring

/-- The module parameters. -/
structure ParParams where
  nthreads : UInt32 := 4
  chunk : UInt32 := 65536
  recattr : Bool := true
  privMode : Bool := true
  limit : UInt32 := 0

/-- The baseline runs one thread, whatever `nthreads` says. -/
def ParParams.workers (params : ParParams) : Nat :=
  if params.privMode then params.nthreads.toNat else 1

/-- An object of the table: its number, and what `rec` returns for it. -/
abbrev Object := UInt64 × DtOtableRec

/-- The object table, in the order of the object numbers. -/
structure ObjectTable where
  objects : List Object
  sorted : objects.Pairwise (fun left right => left.1 < right.1)

/-- `load`: the objects from the first one numbered above `hash` on. The iterator stands on
the first of them, `store` is its number and `next` drops it; with none left both `load`
and `next` return 1.
-/
def ObjectTable.load (table : ObjectTable) (hash : UInt64) : List Object :=
  table.objects.dropWhile (fun object => object.1 ≤ hash)

/-- The totals of a range, or of the whole run. -/
@[ext]
structure Tally where
  objects : UInt64 := 0
  attrOk : UInt64 := 0
  fidsum : UInt64 := 0
  attrsum : UInt64 := 0
deriving DecidableEq

instance : Zero Tally := ⟨{}⟩

instance : Add Tally :=
  ⟨fun left right =>
    {
      objects := left.objects + right.objects
      attrOk := left.attrOk + right.attrOk
      fidsum := left.fidsum + right.fidsum
      attrsum := left.attrsum + right.attrsum
    }⟩

theorem tally_add_eq (left right : Tally)
    : left + right
      = ⟨left.objects + right.objects, left.attrOk + right.attrOk,
          left.fidsum + right.fidsum, left.attrsum + right.attrsum⟩ :=
  rfl

theorem tally_zero_eq : (0 : Tally) = {} := rfl

instance : AddCommMonoid Tally where
  add_assoc left middle right := by simp only [tally_add_eq, add_assoc]
  zero_add tally := by simp only [tally_add_eq, tally_zero_eq, zero_add]
  add_zero tally := by simp only [tally_add_eq, tally_zero_eq, add_zero]
  add_comm left right := by simp only [tally_add_eq, add_comm]
  nsmul := nsmulRec

def lfuFidHash (fid : LuFid) : UInt64 :=
  fid.fSeq * 0x9E3779B97F4A7C15 + fid.fOid.toUInt64 * 0x2545F4914F6CDD1D
    + fid.fVer.toUInt64

def lfuAttrHash (la : LuAttr) : UInt64 :=
  la.laMode.toUInt64 * 0x100000001B3
    + la.laNlink.toUInt64 * 0x85EBCA77C2B2AE63
    + la.laUid.toUInt64 * 0x9E3779B97F4A7C15
    + la.laGid.toUInt64 * 0xC2B2AE3D27D4EB4F
    + la.laSize * 0x165667B19E3779F9
    + la.laBlocks * 0x27D4EB2F165667C5
    + la.laAtime.toUInt64 + la.laMtime.toUInt64 * 3 + la.laCtime.toUInt64 * 7

/-- The bit `LA_MODE` of `la_valid`. -/
def laModeBit : UInt64 := 0x10

/-- Count one object. -/
def Tally.count (recattr : Bool) (tally : Tally) (dor : DtOtableRec) : Tally :=
  let counted :=
    {
      tally with
      objects := tally.objects + 1
      fidsum := tally.fidsum + lfuFidHash dor.dorFid
    }
  if recattr && dor.dorAttr.laValid &&& laModeBit != 0 && dor.dorAttr.laMode != 0 then
    {
      counted with
      attrOk := counted.attrOk + 1
      attrsum := counted.attrsum + lfuAttrHash dor.dorAttr
    }
  else
    counted

/-- What one object adds to the totals. -/
def objectTally (recattr : Bool) (object : Object) : Tally := Tally.count recattr 0 object.2

/-- Every object of the table, counted once. -/
def ObjectTable.total (table : ObjectTable) (recattr : Bool) : Tally :=
  (table.objects.map (objectTally recattr)).sum

theorem Tally.count_eq (recattr : Bool) (tally : Tally) (object : Object)
    : tally.count recattr object.2 = tally + objectTally recattr object := by
  unfold objectTally Tally.count
  simp only
  split <;> ext <;> simp [tally_add_eq, tally_zero_eq]

-----------------------------------------------------------------------------------------
-- The threads
-----------------------------------------------------------------------------------------

/-- The state the workers share (`struct lfu_par_state`). -/
structure Shared where
  cursor : UInt64 := 0
  totals : Tally := 0
  chunks : UInt64 := 0
  done : Bool := false
  err : Int := 0

/-- Where a worker is: in its own loop, or in `lfu_par_scan_range` on one range. Each step
reads or writes the shared state at most once.
-/
inductive Worker
  | unborn
  | born
  | testDone
  | testErr
  | fetch
  | init (start end_ : UInt64)
  | load (start end_ : UInt64)
  | loop (current : Object) (rest : List Object) (end_ : UInt64) (tally : Tally)
  | addObjects (rc : Int) (tally : Tally)
  | addAttrOk (rc : Int) (tally : Tally)
  | addFidsum (rc : Int) (tally : Tally)
  | addAttrsum (rc : Int) (tally : Tally)
  | addChunks (rc : Int)
  | returned (rc : Int)
  | setDone
  | finish (rc : Int)
  | setErr (rc : Int)
  | out
  | exited
deriving DecidableEq

/-- The test `while (rc == 0)` after the iterator has moved. -/
def Worker.moved (end_ : UInt64) (tally : Tally) : List Object → Worker
  | [] => .addObjects 1 tally
  | current :: rest => .loop current rest end_ tally

/-- Where `lfu_par_scan_range` loads its iterator. -/
def loadHash (start : UInt64) : UInt64 := if start ≠ 0 then start - 1 else 0

/-- One step of a worker (`lfu_par_worker`, `lfu_par_scan_range`) that meets no error. -/
def workerStep (params : ParParams) (table : ObjectTable) (st : Shared)
    : Worker → Shared × Worker
  | .unborn => (st, .unborn)
  | .born => (st, if params.privMode then .testDone else .init 0 (~~~0))
  | .testDone => (st, if st.done then .finish 0 else .testErr)
  | .testErr => (st, if st.err ≠ 0 then .finish 0 else .fetch)
  | .fetch =>
      let start := st.cursor * params.chunk.toUInt64
      ({ st with cursor := st.cursor + 1 }, .init start (start + params.chunk.toUInt64))
  | .init start end_ => (st, .load start end_)
  | .load start end_ => (st, .moved end_ 0 (table.load (loadHash start)))
  | .loop current rest end_ tally =>
      if current.1 ≥ end_ then
        (st, .addObjects 0 tally)
      else
        let tally := tally.count params.recattr current.2
        if params.limit ≠ 0 ∧ st.totals.objects + tally.objects ≥ params.limit.toUInt64 then
          (st, .addObjects 1 tally)
        else
          (st, .moved end_ tally rest)
  | .addObjects rc tally =>
      ({ st with totals.objects := st.totals.objects + tally.objects }, .addAttrOk rc tally)
  | .addAttrOk rc tally =>
      ({ st with totals.attrOk := st.totals.attrOk + tally.attrOk }, .addFidsum rc tally)
  | .addFidsum rc tally =>
      ({ st with totals.fidsum := st.totals.fidsum + tally.fidsum }, .addAttrsum rc tally)
  | .addAttrsum rc tally =>
      ({ st with totals.attrsum := st.totals.attrsum + tally.attrsum },
        if tally.objects ≠ 0 then .addChunks rc else .returned rc)
  | .addChunks rc => ({ st with chunks := st.chunks + 1 }, .returned rc)
  | .returned rc =>
      if params.privMode then
        (st, if rc > 0 then .setDone else if rc < 0 then .finish rc else .testDone)
      else
        (st, .finish (if rc > 0 then 0 else rc))
  | .setDone => ({ st with done := true }, .finish 0)
  | .finish rc => (st, if rc < 0 ∧ st.err = 0 then .setErr rc else .out)
  | .setErr rc => ({ st with err := rc }, .out)
  | .out => (st, .exited)
  | .exited => (st, .exited)

/-- The ways a worker can meet an error: its environment, or a call of the iterator. -/
inductive WorkerFault (params : ParParams) : Worker → Worker → Prop
  | envFails : WorkerFault params .born .out
  | initFails (start end_ : UInt64) (rc : Int) (failed : rc < 0)
    : WorkerFault params (.init start end_) (.returned rc)
  | loadFails (start end_ : UInt64) (rc : Int) (failed : rc < 0)
    : WorkerFault params (.load start end_) (.addObjects rc 0)
  | recFails (current : Object) (rest : List Object) (end_ : UInt64) (tally : Tally) (rc : Int)
    (inside : current.1 < end_) (failed : rc ≠ 0)
    : WorkerFault params (.loop current rest end_ tally) (.addObjects rc tally)
  | nextFails (current : Object) (rest : List Object) (end_ : UInt64) (tally : Tally) (rc : Int)
    (inside : current.1 < end_) (failed : rc < 0)
    : WorkerFault params (.loop current rest end_ tally)
        (.addObjects rc (tally.count params.recattr current.2))

/-- The whole harness; `spawned` threads have been started. -/
structure Harness (params : ParParams) where
  st : Shared := {}
  spawned : Nat := 0
  workers : Fin params.workers → Worker := fun _ => .unborn

inductive Event
  | step
  | fault
deriving DecidableEq

/-- Any worker steps, or the next one is started. -/
inductive Step (params : ParParams) (table : ObjectTable)
    : Harness params → Event → Harness params → Prop
  | spawn {s} (i : Fin params.workers) (next : s.spawned = i.val)
    : Step params table s .step
        {
          s with
          spawned := s.spawned + 1
          workers := Function.update s.workers i .born
        }
  | spawnFault {s} (pending : s.spawned < params.workers) (rc : Int) (failed : rc < 0)
    : Step params table s .fault
        { s with spawned := params.workers, st.err := rc }
  | worker {s} (i : Fin params.workers)
    : Step params table s .step
        {
          s with
          st := (workerStep params table s.st (s.workers i)).1
          workers := Function.update s.workers i (workerStep params table s.st (s.workers i)).2
        }
  | workerFault {s} (i : Fin params.workers) (next : Worker)
    (failed : WorkerFault params (s.workers i) next)
    : Step params table s .fault { s with workers := Function.update s.workers i next }

end LfuScan.Par
