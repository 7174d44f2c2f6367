import LfuScan.Core.Coverage
import LfuScan.Ring.Stream

/-! The userspace end of the object stream: the backend that turns what `read()` returns
into records for the core.
-/

namespace LfuScan.Kmdt

open LfuScan.Lustre LfuScan.Filter LfuScan.Ring LfuScan.Core LfuScan.Foundations

/-- The payload a scan sends to the kernel side. -/
def filterPayload (o : LfuOpts) : LfuRingFilter :=
  {
    rfMagic := lfuRingFilterMagic
    rfVersion := lfuRingWireVersion
    rfSize := lfuFilterSize
    rfFlags := if o.emitUnknown then lfuFilterEmitUnknown else 0
    rfFilter := o.filter
  }

/-- Check what the kernel side is and can do, and send it the filter if there is one.
`copied` and `mem` are the kernel's luck with `copy_to_user` and its allocations, `memory`
is that of `calloc`.
-/
def lfuKmdtNegotiate (params : RingParams) (r : LfuRing) (o : LfuOpts) (copied memory : Bool)
    (mem : AllocReply)
    : Int × LfuRing :=
  match lfuRingIoctl params r (.info copied) with
  | (0, _, .info info) =>
      if info.riWireVersion != lfuRingWireVersion
          || info.riRecSize != lfuWireRecSize.toUInt32 then
        (-1, r)
      else if info.riMaxPred != UInt32.ofNat lfuMaxPred then
        (-1, r)
      else if !lfuFilterActive o.filter then
        (0, r)
      else if lfuFilterNeeds o.filter &&& ~~~info.riCanSupply != 0 then
        (-1, r)
      else if lfuFilterAttrsUsed o.filter &&& ~~~info.riAttrMask != 0 then
        (-1, r)
      else if !memory then
        (-1, r)
      else
        let answer := lfuRingIoctl params r (.setFilter (some (filterPayload o)) mem)
        if answer.1 != 0 then (-1, answer.2.1) else (0, answer.2.1)
  | _ => (-1, r)

/-- What one `read()` of the stream gave its caller. -/
inductive ReadResult
  | failed (errno : Int)
  | got (records : List LfuWireRec)

/-- The `errno` of a negative return. An interrupted wait is restarted behind the caller's
back or shows as `EINTR`, which the caller treats the same way.
-/
def readErrno (rc : Int) : Int := if rc = -erestartsys then eintr else -rc

def readResult : Event → Option ReadResult
  | .readRecords records => some (.got records)
  | .readEnd rc | .readFail rc =>
      some (if rc < 0 then .failed (readErrno rc) else .got [])
  | _ => none

/-- The results of the reads of a run, in order. -/
def readResults (trace : List Event) : List ReadResult := trace.filterMap readResult

/-- One record of the stream: counted, converted, and handed to the core. The FID came from
the object's LMA, so its presence says that there was one.
-/
def kmdtVisit (wr : LfuWireRec) : Visit :=
  { own := { seen := 1 }
    object := some (lfuKmdtRec wr, (lfuKmdtRec wr).fid.fSeq != 0, none) }

/-- The read loop: the context and lines after it, and the result it ends with, or `none`
while it waits for the next `read()`.
-/
def readLoop (env : Platform) : LfuCtx → List ReadResult → LfuCtx × List Line × Option Int
  | cx, [] => (cx, [], if cx.stop then some 0 else none)
  | cx, read :: rest =>
      if cx.stop then
        (cx, [], some 0)
      else
        match read with
        | .failed errno => if errno = eintr then readLoop env cx rest else (cx, [], some (-1))
        | .got [] => (cx, [], some 0)
        | .got records =>
            let batch := visitEntries env cx (records.map kmdtVisit)
            let others := readLoop env batch.1 rest
            (others.1, batch.2 ++ others.2.1, others.2.2)

/-- The kernel's counters take the place of those only the kernel can know. -/
def foldStats (cx : LfuCtx) (stats : Option LfuRingStats) : LfuCtx :=
  match stats with
  | none => cx
  | some st =>
      {
        cx with
        st :=
          {
            cx.st with
            filtered := st.rsFiltered0
            filtered1 := st.rsFiltered1
            unknown := st.rsUnknown
            tier2Read := st.rsXaExt
          }
      }

/-- One call, with whether its buffer could be allocated and what the statistics ioctl
answered: the context and lines after it, and the return code with `*done`, or `none` while
it waits for the next `read()`.
-/
def lfuKmdtScanChunk (env : Platform) (cx : LfuCtx) (idx : Nat) (memory : Bool)
    (reads : List ReadResult) (stats : Option LfuRingStats)
    : LfuCtx × List Line × Option (Int × Bool) :=
  if idx > 0 then
    (cx, [], some (0, true))
  else if !memory then
    (cx, [], some (-1, false))
  else
    match readLoop env cx reads with
    | (cx, lines, none) => (cx, lines, none)
    | (cx, lines, some rc) =>
        if rc != 0 then
          (cx, lines, some (rc, false))
        else
          (foldStats cx stats, lines, some (0, true))

/-- The records before the end of the stream or its failure. -/
def streamRecords : List ReadResult → List LfuWireRec
  | [] => []
  | .failed errno :: rest => if errno = eintr then streamRecords rest else []
  | .got [] :: _ => []
  | .got (wr :: more) :: rest => wr :: more ++ streamRecords rest

/-- How the stream ended, if it has. -/
def streamEnd : List ReadResult → Option Int
  | [] => none
  | .failed errno :: rest => if errno = eintr then streamEnd rest else some (-1)
  | .got [] :: _ => some 0
  | .got (_ :: _) :: rest => streamEnd rest

/-- The backend as the pool sees it: the stream is chunk 0, and every other chunk only says
that there is no more. A failed allocation can make the first one fail, too.
-/
def kmdtBackend (reads : List ReadResult) : Backend where
  chunk idx := if idx > 0 then [] else (streamRecords reads).map kmdtVisit
  mayFinish idx done := done = true ∧ (idx > 0 ∨ streamEnd reads = some 0)
  mayFail idx := idx = 0

/-- The read loop visits the entries of the chunk, and ends as the stream does unless it is
stopped before.
-/
theorem readLoop_visits (env : Platform) (reads : List ReadResult) (cx : LfuCtx)
    : readLoop env cx reads
      = (let visited := visitEntries env cx ((streamRecords reads).map kmdtVisit)
        (visited.1, visited.2, if visited.1.stop then some 0 else streamEnd reads)) := by
  induction reads generalizing cx with
  | nil => rfl
  | cons read rest ih =>
      unfold readLoop
      by_cases stopped : cx.stop = true
      · simp only [stopped, if_true, visitEntries_stopped env stopped]
      rw [if_neg stopped]
      cases read with
      | failed errno =>
          by_cases interrupted : errno = eintr
          · simp only [interrupted, if_true, streamRecords, streamEnd]
            exact ih cx
          · simp only [interrupted, if_false, streamRecords, streamEnd, List.map_nil,
              visitEntries, stopped, Bool.false_eq_true]
      | got records =>
          cases records with
          | nil =>
              simp only [streamRecords, streamEnd, List.map_nil, visitEntries, stopped,
                Bool.false_eq_true, if_false]
          | cons wr more =>
              simp only [streamRecords, streamEnd, List.map_append, visitEntries_append, ih]

/-- Without a limit the read loop ends as the stream does. -/
theorem readLoop_eq (env : Platform) {cx : LfuCtx} (noLimit : cx.o.limit = 0)
    (going : cx.stop = false) (reads : List ReadResult)
    : readLoop env cx reads
      = ((visitEntries env cx ((streamRecords reads).map kmdtVisit)).1,
          (visitEntries env cx ((streamRecords reads).map kmdtVisit)).2, streamEnd reads) := by
  rw [readLoop_visits]
  simp only [(visitEntries_going env noLimit going _).1, Bool.false_eq_true, if_false]

/-- A call for the stream visits the entries of the chunk, and finishes or fails as the
stream does.
-/
theorem lfuKmdtScanChunk_stream (env : Platform) {cx : LfuCtx} (noLimit : cx.o.limit = 0)
    (going : cx.stop = false) (reads : List ReadResult) (stats : Option LfuRingStats)
    : lfuKmdtScanChunk env cx 0 true reads stats
      = (let visited := visitEntries env cx ((kmdtBackend reads).chunk 0)
        match streamEnd reads with
        | none => (visited.1, visited.2, none)
        | some rc =>
            if rc != 0 then
              (visited.1, visited.2, some (rc, false))
            else
              (foldStats visited.1 stats, visited.2, some (0, true))) := by
  unfold lfuKmdtScanChunk
  rw [readLoop_eq env noLimit going]
  cases streamEnd reads <;> rfl

end LfuScan.Kmdt
