import LfuScan.Foundations.Transition
import LfuScan.Ring.FilterObject
import Mathlib.Logic.Function.Basic

/-! The object stream as a step relation: the producer thread, one reader inside `read()`,
and signals and close from outside, interleaved one memory access at a time under
sequential consistency. The iterator and the OSD are the environment: every step that
calls them may receive any answer.
-/

namespace LfuScan.Ring

open LfuScan.Lustre LfuScan.Filter LfuScan.Foundations

/-- Where the producer thread stands, with the locals that are still needed.
`inLoop` tells the check `wait_event` makes first from the ones made after queueing.
-/
inductive Producer
  | unborn
  | setup
  | load
  | top
  | recAttr
  | stallTest (wr : LfuWireRec)
  | stallWake (wr : LfuWireRec)
  | waitFree (wr : LfuWireRec) (inLoop : Bool)
  | waitStop (wr : LfuWireRec) (inLoop : Bool)
  | prepare (wr : LfuWireRec)
  | sched (wr : LfuWireRec)
  | waited (wr : LfuWireRec)
  | fill (wr : LfuWireRec)
  | publish (wr : LfuWireRec)
  | wakeTest
  | wake
  | next
  | drained (rc : Int)
  | setErr (rc : Int)
  | setDone
  | wakeAll
  | parked

/-- Which evaluation of the condition `wait_event_interruptible` is making: the first one,
or one after queueing, with whether a signal was found pending.
-/
inductive WaitCheck
  | first
  | queued (intr : Bool)

/-- Where the reader stands inside `lfu_ring_read`. -/
inductive Reader
  | idle
  | start (want : UInt64)
  | loadHead (want : UInt64)
  | loadDone (want : UInt64)
  | loadErr
  | waitHead (want : UInt64) (check : WaitCheck)
  | waitDone (want : UInt64) (check : WaitCheck)
  | prepare (want : UInt64)
  | sched (want : UInt64)
  | copy (idx run : UInt64) (got : List LfuWireRec)
  | storeTail (run : UInt64) (got : List LfuWireRec)
  | wakeTest (got : List LfuWireRec)
  | wake (got : List LfuWireRec)

/-- The open device with the threads using it. `pushed` is every record that has entered the
ring and `returned` every record a finished `read()` handed out; no step reads them.
-/
structure Sys extends LfuRing where
  producer : Producer := .unborn
  reader : Reader := .idle
  prodQueued : Bool := false
  consQueued : Bool := false
  signal : Bool := false
  stop : Bool := false
  closed : Bool := false
  now : Int := 0
  pushed : List LfuWireRec := []
  returned : List LfuWireRec := []

/-- What a step shows outside: iterator answers, the store of `done`, close, and how a
`read()` returned.
-/
inductive Event
  | tau
  | setupRet (rc : Int)
  | loadRet (rc : Int)
  | nextRet (rc : Int)
  | doneSet
  | released
  | readRecords (records : List LfuWireRec)
  | readEnd (rc : Int)
  | readFail (rc : Int)

/-- The device before its first `read()`: any filter may be set, nothing has moved yet. -/
structure Sys.Fresh (s : Sys) : Prop where
  head : s.head = 0
  tail : s.tail = 0
  lastWake : s.lastWake = 0
  started : s.started = false
  done : s.done = false
  err : s.err = 0
  producer : s.producer = .unborn
  reader : s.reader = .idle
  prodQueued : s.prodQueued = false
  consQueued : s.consQueued = false
  stop : s.stop = false
  pushed : s.pushed = []
  returned : s.returned = []

/-- The slot of a counter, `counter & (ring_recs - 1)`. -/
def ringSlot (params : RingParams) (counter : UInt64) : UInt64 :=
  counter &&& (params.ringRecs - 1).toUInt64

/-- The producer counts an object and filters it. -/
def Sys.filterObject (env : Platform) (s : Sys) (oid : UInt64) (dor : DtOtableRec)
    (reply : XattrName → XaReply)
    : FilterObjectResult :=
  lfuFilterObject env { s.toLfuRing with st := { s.st with rsSeen := s.st.rsSeen + 1 } }
    reply (lfuRecFromDor oid dor) s.now

/-- What the producer does with a filtered object: end the scan, push it, or go on. -/
def afterFilter (emitUnknown : Bool) (oid : UInt64) (dor : DtOtableRec)
    (result : FilterObjectResult)
    : Producer :=
  match result.verdict with
  | .error rc => .drained rc
  | .ok .matched => .stallTest (lfuFillRec oid dor result.record result.lfuBits)
  | .ok .unknown =>
      if emitUnknown then
        .stallTest (lfuFillRec oid dor result.record result.lfuBits)
      else
        .next
  | .ok .noMatch => .next

/-- The three places a filtered object can lead to. -/
theorem afterFilter_cases (motive : Producer → Prop) {emitUnknown : Bool} {oid : UInt64}
    {dor : DtOtableRec} {result : FilterObjectResult}
    (drained : ∀ rc, result.verdict = .error rc → motive (.drained rc))
    (push : ∀ wr, motive (.stallTest wr)) (skip : motive .next)
    : motive (afterFilter emitUnknown oid dor result) := by
  unfold afterFilter
  split
  · rename_i rc failed
    exact drained rc failed
  · exact push _
  · split
    · exact push _
    · exact skip
  · exact skip

/-- What is pushed was matched, or is undecided and asked for. -/
theorem afterFilter_pushed {emitUnknown : Bool} {oid : UInt64} {dor : DtOtableRec}
    {result : FilterObjectResult} {wr : LfuWireRec}
    (pushed : afterFilter emitUnknown oid dor result = .stallTest wr)
    : (result.verdict = .ok .matched ∨ result.verdict = .ok .unknown)
      ∧ wr = lfuFillRec oid dor result.record result.lfuBits := by
  unfold afterFilter at pushed
  split at pushed
  · cases pushed
  · rename_i matched
    cases pushed
    exact ⟨.inl matched, rfl⟩
  · rename_i undecided
    split at pushed
    · cases pushed
      exact ⟨.inr undecided, rfl⟩
    · cases pushed
  · cases pushed

/-- The iterator's own counters (`struct dt_otable_stats`). -/
structure DtOtableStats where
  dosRaw : UInt64
  dosFallback : UInt64
  dosXaInline : UInt64
  dosXaExt : UInt64
  dosXaIget : UInt64

/-- The counters the producer takes over at the end, if the iterator keeps them. -/
def takeIterStats (st : LfuRingStats) (dos : Option DtOtableStats) : LfuRingStats :=
  match dos with
  | none => st
  | some dos =>
      {
        st with
        rsRaw := dos.dosRaw
        rsFallback := dos.dosFallback
        rsXaInline := dos.dosXaInline
        rsXaExt := dos.dosXaExt
        rsXaIget := dos.dosXaIget
      }

/-- How many records one `read()` copies: what is there, what was asked for, and no
further than the wrap point.
-/
def readRun (params : RingParams) (r : LfuRing) (want : UInt64) : UInt64 :=
  min (min (lfuRingAvail r) want) (params.ringRecs.toUInt64 - ringSlot params r.tail)

/-- One step of `lfu_producer`. -/
inductive ProducerStep (env : Platform) (params : RingParams) : Sys → Event → Sys → Prop
  | setupOk {s} (at_ : s.producer = .setup)
    : ProducerStep env params s (.setupRet 0) { s with producer := .load }
  -- looking up the device, the environment, the object, its index and `init()`: each
  -- fails with an error pointer or a negative code
  | setupFail {s} (at_ : s.producer = .setup) (rc : Int) (failed : rc < 0)
    : ProducerStep env params s (.setupRet rc) { s with producer := .setErr rc }
  | loadOk {s} (at_ : s.producer = .load) (now : Int)
    : ProducerStep env params s (.loadRet 0) { s with producer := .top, now }
  | loadEmpty {s} (at_ : s.producer = .load) (rc : Int) (empty : rc > 0)
    : ProducerStep env params s (.loadRet rc) { s with producer := .setErr 0 }
  | loadFail {s} (at_ : s.producer = .load) (rc : Int) (failed : rc < 0)
    : ProducerStep env params s (.loadRet rc) { s with producer := .setErr rc }
  | topStop {s} (at_ : s.producer = .top) (stop : s.stop = true)
    : ProducerStep env params s .tau { s with producer := .drained 0 }
  | topGo {s} (at_ : s.producer = .top) (go : s.stop = false)
    : ProducerStep env params s .tau { s with producer := .recAttr }
  | recFail {s} (at_ : s.producer = .recAttr)
    : ProducerStep env params s .tau { s with producer := .next }
  | recObject {s} (at_ : s.producer = .recAttr) (oid : UInt64) (dor : DtOtableRec)
    (reply : XattrName → XaReply)
    : ProducerStep env params s .tau
        {
          s with
          st := (s.filterObject env oid dor reply).st
          producer := afterFilter s.emitUnknown oid dor (s.filterObject env oid dor reply)
        }
  | stallFull {s wr} (at_ : s.producer = .stallTest wr)
    (full : lfuRingFree params s.toLfuRing = 0)
    : ProducerStep env params s .tau { s with producer := .stallWake wr }
  | stallFree {s wr} (at_ : s.producer = .stallTest wr)
    (free : lfuRingFree params s.toLfuRing ≠ 0)
    : ProducerStep env params s .tau { s with producer := .fill wr }
  | stallWake {s wr} (at_ : s.producer = .stallWake wr)
    : ProducerStep env params s .tau
        {
          s with
          st := { s.st with rsStalls := s.st.rsStalls + 1 }
          consQueued := false
          producer := .waitFree wr false
        }
  | waitFreeYes {s wr inLoop} (at_ : s.producer = .waitFree wr inLoop)
    (room : lfuRingFree params s.toLfuRing ≥ params.batch.toUInt64)
    : ProducerStep env params s .tau { s with prodQueued := false, producer := .waited wr }
  | waitFreeNo {s wr inLoop} (at_ : s.producer = .waitFree wr inLoop)
    (tight : lfuRingFree params s.toLfuRing < params.batch.toUInt64)
    : ProducerStep env params s .tau { s with producer := .waitStop wr inLoop }
  | waitStopYes {s wr inLoop} (at_ : s.producer = .waitStop wr inLoop)
    (stop : s.stop = true)
    : ProducerStep env params s .tau { s with prodQueued := false, producer := .waited wr }
  | waitStopFirst {s wr} (at_ : s.producer = .waitStop wr false) (go : s.stop = false)
    : ProducerStep env params s .tau { s with producer := .prepare wr }
  | waitStopLoop {s wr} (at_ : s.producer = .waitStop wr true) (go : s.stop = false)
    : ProducerStep env params s .tau { s with producer := .sched wr }
  | prepare {s wr} (at_ : s.producer = .prepare wr)
    : ProducerStep env params s .tau
        { s with prodQueued := true, producer := .waitFree wr true }
  | sched {s wr} (at_ : s.producer = .sched wr) (woken : s.prodQueued = false)
    : ProducerStep env params s .tau { s with producer := .prepare wr }
  | waitedStop {s wr} (at_ : s.producer = .waited wr) (stop : s.stop = true)
    : ProducerStep env params s .tau { s with producer := .drained 0 }
  | waitedGo {s wr} (at_ : s.producer = .waited wr) (go : s.stop = false)
    : ProducerStep env params s .tau { s with producer := .stallTest wr }
  | fill {s wr} (at_ : s.producer = .fill wr)
    : ProducerStep env params s .tau
        {
          s with
          buf := Function.update s.buf (ringSlot params s.head).toNat wr
          producer := .publish wr
        }
  | publish {s wr} (at_ : s.producer = .publish wr)
    : ProducerStep env params s .tau
        {
          s with
          head := s.head + 1
          produced := s.produced + 1
          st := { s.st with rsEmitted := s.st.rsEmitted + 1 }
          pushed := s.pushed ++ [wr]
          producer := .wakeTest
        }
  | wakeTestYes {s} (at_ : s.producer = .wakeTest)
    (due : s.head - s.lastWake ≥ params.batch.toUInt64)
    : ProducerStep env params s .tau { s with lastWake := s.head, producer := .wake }
  | wakeTestNo {s} (at_ : s.producer = .wakeTest)
    (early : s.head - s.lastWake < params.batch.toUInt64)
    : ProducerStep env params s .tau { s with producer := .next }
  | wake {s} (at_ : s.producer = .wake)
    : ProducerStep env params s .tau { s with consQueued := false, producer := .next }
  | nextOk {s} (at_ : s.producer = .next)
    : ProducerStep env params s (.nextRet 0) { s with producer := .top }
  | nextEnd {s} (at_ : s.producer = .next) (rc : Int) (ended : rc ≠ 0)
    : ProducerStep env params s (.nextRet rc) { s with producer := .drained 0 }
  | drained {s rc} (at_ : s.producer = .drained rc) (dos : Option DtOtableStats)
    : ProducerStep env params s .tau
        { s with st := takeIterStats s.st dos, producer := .setErr rc }
  | setErr {s rc} (at_ : s.producer = .setErr rc)
    : ProducerStep env params s .tau
        { s with err := rc, st := { s.st with rsErr := rc }, producer := .setDone }
  | setDone {s} (at_ : s.producer = .setDone)
    : ProducerStep env params s .doneSet { s with done := true, producer := .wakeAll }
  | wakeAll {s} (at_ : s.producer = .wakeAll)
    : ProducerStep env params s .tau { s with consQueued := false, producer := .parked }

/-- One step of `lfu_ring_read`, or of the process that calls it. -/
inductive ReaderStep (params : RingParams) : Sys → Event → Sys → Prop
  | callShort {s} (at_ : s.reader = .idle) (len : UInt64) (opened : s.closed = false)
    (short : len / lfuWireRecSize = 0)
    : ReaderStep params s (.readFail (-einval)) s
  | call {s} (at_ : s.reader = .idle) (len : UInt64) (opened : s.closed = false)
    (whole : len / lfuWireRecSize ≠ 0)
    : ReaderStep params s .tau { s with reader := .start (len / lfuWireRecSize) }
  | startFail {s want} (at_ : s.reader = .start want) (rc : Int)
    (first : s.started = false) (failed : rc < 0)
    : ReaderStep params s (.readFail rc) { s with reader := .idle }
  | startNew {s want} (at_ : s.reader = .start want) (first : s.started = false)
    : ReaderStep params s .tau
        { s with started := true, producer := .setup, reader := .loadHead want }
  | startOld {s want} (at_ : s.reader = .start want) (running : s.started = true)
    : ReaderStep params s .tau { s with reader := .loadHead want }
  | headSome {s want} (at_ : s.reader = .loadHead want)
    (some_ : lfuRingAvail s.toLfuRing > 0)
    : ReaderStep params s .tau
        {
          s with
          reader := .copy (ringSlot params s.tail) (readRun params s.toLfuRing want) []
        }
  | headNone {s want} (at_ : s.reader = .loadHead want)
    (none_ : ¬ lfuRingAvail s.toLfuRing > 0)
    : ReaderStep params s .tau { s with reader := .loadDone want }
  | doneYes {s want} (at_ : s.reader = .loadDone want) (done : s.done = true)
    : ReaderStep params s .tau { s with reader := .loadErr }
  | doneNo {s want} (at_ : s.reader = .loadDone want) (more : s.done = false)
    : ReaderStep params s .tau { s with reader := .waitHead want .first }
  | loadErr {s} (at_ : s.reader = .loadErr)
    : ReaderStep params s (.readEnd s.err) { s with reader := .idle }
  | waitHeadYes {s want check} (at_ : s.reader = .waitHead want check)
    (some_ : lfuRingAvail s.toLfuRing > 0)
    : ReaderStep params s .tau { s with consQueued := false, reader := .loadHead want }
  | waitHeadNo {s want check} (at_ : s.reader = .waitHead want check)
    (none_ : ¬ lfuRingAvail s.toLfuRing > 0)
    : ReaderStep params s .tau { s with reader := .waitDone want check }
  | waitDoneYes {s want check} (at_ : s.reader = .waitDone want check)
    (done : s.done = true)
    : ReaderStep params s .tau { s with consQueued := false, reader := .loadHead want }
  | waitDoneFirst {s want} (at_ : s.reader = .waitDone want .first) (more : s.done = false)
    : ReaderStep params s .tau { s with reader := .prepare want }
  | waitDoneSleep {s want} (at_ : s.reader = .waitDone want (.queued false))
    (more : s.done = false)
    : ReaderStep params s .tau { s with reader := .sched want }
  | waitDoneIntr {s want} (at_ : s.reader = .waitDone want (.queued true))
    (more : s.done = false)
    : ReaderStep params s (.readFail (-erestartsys))
        { s with consQueued := false, reader := .idle }
  | prepareIntr {s want} (at_ : s.reader = .prepare want) (pending : s.signal = true)
    : ReaderStep params s .tau
        { s with consQueued := false, reader := .waitHead want (.queued true) }
  | prepare {s want} (at_ : s.reader = .prepare want) (quiet : s.signal = false)
    : ReaderStep params s .tau
        { s with consQueued := true, reader := .waitHead want (.queued false) }
  | sched {s want} (at_ : s.reader = .sched want) (woken : s.consQueued = false)
    : ReaderStep params s .tau { s with reader := .prepare want }
  | copyOne {s idx run got} (at_ : s.reader = .copy idx run got)
    (more : got.length < run.toNat)
    : ReaderStep params s .tau
        { s with reader := .copy idx run (got ++ [s.buf (idx.toNat + got.length)]) }
  | copyFault {s idx run got} (at_ : s.reader = .copy idx run got)
    : ReaderStep params s (.readFail (-efault)) { s with reader := .idle }
  | copyDone {s idx run got} (at_ : s.reader = .copy idx run got)
    (full : got.length = run.toNat)
    : ReaderStep params s .tau { s with reader := .storeTail run got }
  | storeTail {s run got} (at_ : s.reader = .storeTail run got)
    : ReaderStep params s .tau { s with tail := s.tail + run, reader := .wakeTest got }
  | wakeTestYes {s got} (at_ : s.reader = .wakeTest got)
    (room : lfuRingFree params s.toLfuRing ≥ params.batch.toUInt64)
    : ReaderStep params s .tau { s with reader := .wake got }
  | wakeTestNo {s got} (at_ : s.reader = .wakeTest got)
    (tight : lfuRingFree params s.toLfuRing < params.batch.toUInt64)
    : ReaderStep params s (.readRecords got)
        { s with returned := s.returned ++ got, reader := .idle }
  | wake {s got} (at_ : s.reader = .wake got)
    : ReaderStep params s (.readRecords got)
        { s with prodQueued := false, returned := s.returned ++ got, reader := .idle }

/-- Signals to the reading process, and the close that stops the producer. -/
inductive OutsideStep : Sys → Event → Sys → Prop
  | signal {s} : OutsideStep s .tau { s with signal := true, consQueued := false }
  | handled {s} (at_ : s.reader = .idle) : OutsideStep s .tau { s with signal := false }
  | release {s} (at_ : s.reader = .idle) (opened : s.closed = false)
    : OutsideStep s .released
        { s with closed := true, stop := s.started, prodQueued := false }

/-- One step of the whole stream. -/
inductive Step (env : Platform) (params : RingParams) (s : Sys) (event : Event) (s' : Sys)
    : Prop
  | producer (step : ProducerStep env params s event s')
  | reader (step : ReaderStep params s event s')
  | outside (step : OutsideStep s event s')

end LfuScan.Ring
