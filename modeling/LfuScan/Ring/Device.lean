import LfuScan.Filter.Eval
import LfuScan.Ring.Wire
import LfuScan.Foundations.Posix

/-! The ring device: the state of one open, what the module parameters must satisfy, and
the ioctls that set the filter before the first read.
-/

namespace LfuScan.Ring

open LfuScan.Lustre LfuScan.Filter LfuScan.Foundations

/-- The module parameters: ring capacity and wakeup granularity, both in records, the
device name, and whether the iterator is a private one.
-/
structure RingParams where
  ringRecs : UInt32
  batch : UInt32
  dev : Bytes := []
  privateIt : Bool := true

def isPowerOf2 (n : UInt32) : Bool := n != 0 && n &&& (n - 1) == 0

/-- Module initialisation; `register` is what `misc_register` answers. -/
def lfuRingInit (params : RingParams) (register : Int) : Int :=
  if !isPowerOf2 params.ringRecs || params.batch == 0 || params.batch > params.ringRecs / 2
  then
    -einval
  else
    register

-----------------------------------------------------------------------------------------
-- The device state
-----------------------------------------------------------------------------------------

def lfuRingWireVersion : UInt32 := 2
def lfuRingFilterMagic : UInt32 := 0x4c465546
def lfuFilterEmitUnknown : UInt32 := 0x01

/-- `sizeof(struct lfu_filter)`. -/
def lfuFilterSize : UInt32 := 32 * 352 + 16

/-- The payload of `LFU_RING_IOC_SET_FILTER`. -/
structure LfuRingFilter where
  rfMagic : UInt32
  rfVersion : UInt32
  rfSize : UInt32
  rfFlags : UInt32
  rfFilter : LfuFilter
deriving DecidableEq, Inhabited

structure LfuRingStats where
  rsSeen : UInt64 := 0
  rsFiltered0 : UInt64 := 0
  rsFiltered1 : UInt64 := 0
  rsUnknown : UInt64 := 0
  rsEmitted : UInt64 := 0
  rsXaInline : UInt64 := 0
  rsXaExt : UInt64 := 0
  rsXaIget : UInt64 := 0
  rsXaToolarge : UInt64 := 0
  rsXaErr : UInt64 := 0
  rsRaw : UInt64 := 0
  rsFallback : UInt64 := 0
  rsStalls : UInt64 := 0
  rsErr : Int := 0
deriving DecidableEq, Inhabited

/-- The four scratch buffers; a field is true when its pointer is not NULL. -/
structure Scratch where
  xaSom : Bool := false
  xaLov : Bool := false
  xaLmv : Bool := false
  xaLink : Bool := false
deriving DecidableEq, Inhabited

def Scratch.complete (scratch : Scratch) : Bool :=
  scratch.xaSom && scratch.xaLov && scratch.xaLmv && scratch.xaLink

/-- `struct lfu_ring`. The wait queues belong to the tasks that sleep on them. -/
structure LfuRing where
  buf : Nat → LfuWireRec := fun _ => {}
  head : UInt64 := 0
  tail : UInt64 := 0
  lastWake : UInt64 := 0
  started : Bool := false
  done : Bool := false
  err : Int := 0
  produced : UInt64 := 0
  filter : Option LfuRingFilter := none
  emitUnknown : Bool := false
  scratch : Scratch := {}
  canSupply : UInt32 := 0
  attrMask : UInt32 := 0
  infoFlags : UInt32 := 0
  st : LfuRingStats := {}

def lfuRingAvail (r : LfuRing) : UInt64 := r.head - r.tail

def lfuRingFree (params : RingParams) (r : LfuRing) : UInt64 :=
  params.ringRecs.toUInt64 - (r.head - r.tail)

/-- The OSD types the module knows by name. -/
inductive OsdType
  | ldiskfs
  | zfs
  | other
deriving DecidableEq, Repr

def lfuRingInfoPrivate : UInt32 := 0x01
def lfuRingInfoLdiskfs : UInt32 := 0x02
def lfuRingInfoZfs : UInt32 := 0x04

/-- Everything `rec(DORA_XATTR)` can serve. -/
def needAll : UInt32 :=
  XattrName.som.need ||| XattrName.lov.need ||| XattrName.lmv.need ||| XattrName.link.need

/-- Which OSD is under `dev`, in the build against a tree with `DORA_XATTR`; no type is
found when the device does not exist.
-/
def lfuRingProbe (params : RingParams) (osd : Option OsdType) (r : LfuRing) : LfuRing :=
  let flags := if params.privateIt then lfuRingInfoPrivate else 0
  match osd with
  | some .ldiskfs =>
      {
        r with
        infoFlags := flags ||| lfuRingInfoLdiskfs
        attrMask := lfuAttrAll
        canSupply := needAll
      }
  | some .zfs =>
      {
        r with
        infoFlags := flags ||| lfuRingInfoZfs
        attrMask := lfuAttrImmutable ||| lfuAttrAppend ||| lfuAttrNodump
        canSupply := needAll
      }
  | _ => { r with infoFlags := flags, attrMask := 0, canSupply := 0 }

/-- A freshly opened device; `buf` is whatever `vmalloc` returned. -/
def lfuRingOpen (params : RingParams) (osd : Option OsdType) (buf : Nat → LfuWireRec)
    : LfuRing :=
  lfuRingProbe params osd { buf }

/-- Which allocations of one ioctl succeed. -/
structure AllocReply where
  rf : Bool
  som : Bool
  lov : Bool
  lmv : Bool
  link : Bool
deriving DecidableEq

def lfuRingAllocScratch (r : LfuRing) (mem : AllocReply) : Int × LfuRing :=
  if r.scratch.xaSom then
    (0, r)
  else
    let scratch : Scratch :=
      { xaSom := mem.som, xaLov := mem.lov, xaLmv := mem.lmv, xaLink := mem.link }
    (if !scratch.complete then -enomem else 0, { r with scratch })

/-- `LFU_RING_IOC_SET_FILTER`, which holds the lock throughout; no payload means that
`copy_from_user` failed.
-/
def lfuRingSetFilter (r : LfuRing) (payload : Option LfuRingFilter) (mem : AllocReply)
    : Int × LfuRing :=
  if r.started then
    (-ebusy, r)
  else if !mem.rf then
    (-enomem, r)
  else
    match payload with
    | none => (-efault, r)
    | some rf =>
        if rf.rfMagic != lfuRingFilterMagic
            || rf.rfVersion != lfuRingWireVersion
            || rf.rfSize != lfuFilterSize
            || lfuFilterValidate rf.rfFilter != 0 then
          (-einval, r)
        else if lfuFilterNeeds rf.rfFilter &&& ~~~r.canSupply != 0 then
          (-eopnotsupp, r)
        else if lfuFilterAttrsUsed rf.rfFilter &&& ~~~r.attrMask != 0 then
          (-eopnotsupp, r)
        else
          let allocated :=
            if lfuFilterNeeds rf.rfFilter != 0 then lfuRingAllocScratch r mem else (0, r)
          if allocated.1 != 0 then
            allocated
          else
            (
              0,
              {
                allocated.2 with
                filter := some rf
                emitUnknown := rf.rfFlags &&& lfuFilterEmitUnknown != 0
              }
            )

/-- `struct lfu_ring_info`. -/
structure LfuRingInfo where
  riWireVersion : UInt32
  riRecSize : UInt32
  riCanSupply : UInt32
  riAttrMask : UInt32
  riMaxPred : UInt32
  riFlags : UInt32
  riDev : Bytes
deriving DecidableEq

def lfuRingInfo (params : RingParams) (r : LfuRing) : LfuRingInfo :=
  {
    riWireVersion := lfuRingWireVersion
    riRecSize := lfuWireRecSize.toUInt32
    riCanSupply := r.canSupply
    riAttrMask := r.attrMask
    riMaxPred := UInt32.ofNat lfuMaxPred
    riFlags := r.infoFlags
    riDev := params.dev.take 63
  }

/-- The ioctl commands; the flag of the two queries says whether `copy_to_user` works. -/
inductive IoctlCmd
  | info (copied : Bool)
  | setFilter (payload : Option LfuRingFilter) (mem : AllocReply)
  | stats (copied : Bool)
  | other

/-- What an ioctl hands back to userspace. -/
inductive IoctlOut
  | none
  | info (info : LfuRingInfo)
  | stats (st : LfuRingStats)

def lfuRingIoctl (params : RingParams) (r : LfuRing) : IoctlCmd → Int × LfuRing × IoctlOut
  | .info copied =>
      if copied then (0, r, .info (lfuRingInfo params r)) else (-efault, r, .none)
  | .setFilter payload mem =>
      let answer := lfuRingSetFilter r payload mem
      (answer.1, answer.2, .none)
  | .stats copied => if copied then (0, r, .stats r.st) else (-efault, r, .none)
  | .other => (-enotty, r, .none)

end LfuScan.Ring
