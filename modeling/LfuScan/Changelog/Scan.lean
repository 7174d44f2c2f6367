import LfuScan.Changelog.Seen
import Mathlib.Logic.Function.Basic

/-! Object streams from a changelog (`llapi_scan_changelog`): one record for each event, or
one for each object once its events have settled, and the clearing of what was consumed.
-/

namespace LfuScan.Changelog

open LfuScan.Lustre LfuScan.Lustre.LustreFid LfuScan.Foundations

variable [LustreFid]

/-- The record types the scan tells apart. -/
inductive ClType
  | mark
  | create
  | mkdir
  | softlink
  | rmdir
  | rename
  | migrate
  | other (code : UInt32)
deriving DecidableEq, Repr

/-- The rename extension: the object that moved, and where from. -/
structure ChangelogExtRename where
  crSfid : LuFid := {}
  crSpfid : LuFid := {}
  sname : Bytes := []
deriving DecidableEq, Repr

/-- `struct changelog_rec` with its extensions, which are there if `cr_flags` says so. -/
structure ChangelogRec where
  crIndex : UInt64
  crType : ClType := .create
  crFlags : UInt32 := 0
  crTime : UInt64 := 0
  crTfid : LuFid := {}
  crPfid : LuFid := {}
  crName : Bytes := []
  rename : ChangelogExtRename := {}
  jobid : Bytes := []
  extraFlags : UInt64 := 0
  uid : UInt64 := 0
  gid : UInt64 := 0
deriving DecidableEq, Repr

def clfFlagmask : UInt32 := 0xfff
def clfRename : UInt32 := 0x2000
def clfJobid : UInt32 := 0x4000
def clfExtraFlags : UInt32 := 0x8000
def clfeUidgid : UInt64 := 0x1

/-- The seconds of an event; `cr_time` is shifted by 30 bits. -/
def ChangelogRec.seconds (r : ChangelogRec) : Int := (r.crTime >>> 30).toNat

/-- The objects a record is about: none, its target, what a rename moved, or both. -/
def scanClRecFids (r : ChangelogRec) : List LuFid :=
  if r.crType == .mark then
    []
  else
    let fids := if fidIsSane r.crTfid then [r.crTfid] else []
    if r.crFlags &&& clfRename != 0 && r.crType != .migrate then
      if fidIsSane r.rename.crSfid && !fids.contains r.rename.crSfid then
        fids ++ [r.rename.crSfid]
      else
        fids
    else
      fids

/-- What `scan_cl_event` goes through: one record with no FID for a record about no object. -/
def eventFids (r : ChangelogRec) : List (Option LuFid) :=
  if (scanClRecFids r).isEmpty then [none] else (scanClRecFids r).map some

-----------------------------------------------------------------------------------------
-- Objects
-----------------------------------------------------------------------------------------

/-- What an object can answer for (the `LLAPI_SCAN_*` bits an event sets). -/
structure ScanValid where
  event : Bool := false
  fid : Bool := false
  parent : Bool := false
  type : Bool := false
  eventSrc : Bool := false
  jobid : Bool := false
  eventUid : Bool := false
deriving DecidableEq, Repr

/-- One object's accumulated events (`struct scan_cl_obj`). `coEvents` is not in the source and
nothing reads it: the records the object was made of, in their order.
-/
structure ScanClObj where
  coFid : LuFid := {}
  coPfid : LuFid := {}
  coSrcFid : LuFid := {}
  coSrcPfid : LuFid := {}
  coValid : ScanValid := {}
  coIndex : UInt64 := 0
  coFirst : UInt64 := 0
  coPrev : UInt64 := 0
  coTime : Int := 0
  coFirstTime : Int := 0
  coType : ClType := .mark
  coFlags : UInt32 := 0
  coEventUid : UInt32 := 0
  coEventGid : UInt32 := 0
  coMode : UInt32 := 0
  coName : Option Bytes := none
  coSrcName : Option Bytes := none
  coJobid : Option Bytes := none
  coEvents : List ChangelogRec := []
deriving DecidableEq, Repr

/-- The S_IFMT an event implies, or 0. -/
def scanClMode : ClType → UInt32
  | .create => 0o100000
  | .mkdir | .rmdir => 0o040000
  | .softlink => 0o120000
  | _ => 0

/-- A copy of a string, and the number of allocations so far. An empty one is not copied. -/
def scanClStrdup (memory : Memory) (allocs : Nat) (s : Bytes) : Option Bytes × Nat :=
  if s.isEmpty then (none, allocs) else (if memory allocs then some s else none, allocs + 1)

def absorbName (memory : Memory) (allocs : Nat) (o : ScanClObj) (r : ChangelogRec)
    : ScanClObj × Nat :=
  if r.crName.isEmpty then
    (o, allocs)
  else
    let (coName, allocs) := scanClStrdup memory allocs (r.crName.takeWhile (· != 0))
    ({ o with coName }, allocs)

def absorbMode (o : ScanClObj) (r : ChangelogRec) : ScanClObj :=
  let mode := scanClMode r.crType
  if mode != 0 then { o with coMode := mode, coValid.type := true } else o

def absorbRename (memory : Memory) (allocs : Nat) (o : ScanClObj) (r : ChangelogRec)
    : ScanClObj × Nat :=
  if r.crFlags &&& clfRename != 0 && fidIsSane r.rename.crSfid then
    let (coSrcName, allocs) := scanClStrdup memory allocs r.rename.sname
    (
      {
        o with
        coSrcFid := r.rename.crSfid
        coSrcPfid := r.rename.crSpfid
        coSrcName
        coValid.eventSrc := coSrcName.isSome
      },
      allocs)
  else
    (o, allocs)

def absorbJobid (memory : Memory) (allocs : Nat) (o : ScanClObj) (r : ChangelogRec)
    : ScanClObj × Nat :=
  let jobid := r.jobid.takeWhile (· != 0)
  if r.crFlags &&& clfJobid != 0 && !jobid.isEmpty then
    let (coJobid, allocs) := scanClStrdup memory allocs jobid
    ({ o with coJobid, coValid.jobid := coJobid.isSome }, allocs)
  else
    (o, allocs)

def absorbUid (o : ScanClObj) (r : ChangelogRec) : ScanClObj :=
  if r.crFlags &&& clfExtraFlags != 0 && r.extraFlags &&& clfeUidgid != 0 then
    {
      o with
      coEventUid := r.uid.toUInt32
      coEventGid := r.gid.toUInt32
      coValid.eventUid := true
    }
  else
    o

/-- What one record says about the object it is about, or about none. -/
def scanClAbsorb (memory : Memory) (allocs : Nat) (o : ScanClObj) (r : ChangelogRec)
    (fid : Option LuFid)
    : ScanClObj × Nat :=
  let o := { o with coFid := fid.getD {}, coEvents := o.coEvents ++ [r] }
  let o :=
    -- only a namespace record carries a parent
    if !r.crName.isEmpty && r.crType != .mark && fidIsSane r.crPfid then
      { o with coPfid := r.crPfid }
    else
      o
  let o :=
    {
      o with
      coType := r.crType
      coFlags := r.crFlags &&& clfFlagmask
      coTime := r.seconds
      coIndex := r.crIndex
      coPrev := 0
      coValid :=
        {
          o.coValid with
          event := true
          fid := fidIsSane o.coFid
          parent := fidIsSane o.coPfid
        }
    }
  let (o, allocs) := absorbName memory allocs o r
  let o := absorbMode o r
  let (o, allocs) := absorbRename memory allocs o r
  let (o, allocs) := absorbJobid memory allocs o r
  (absorbUid o r, allocs)

/-- The record a consumer is given, as the event describes it (`struct llapi_scan_rec`). -/
structure LlapiScanRec where
  lfsrFid : LuFid
  lfsrParentFid : LuFid
  lfsrName : Option Bytes
  lfsrEventUid : UInt32
  lfsrEventGid : UInt32
  stxMode : UInt16
  lfsrEventType : ClType
  lfsrEventFlags : UInt32
  lfsrEventTime : Int
  lfsrEventIndex : UInt64
  lfsrEventPrev : UInt64
  lfsrSrcFid : LuFid
  lfsrSrcParentFid : LuFid
  lfsrSrcName : Option Bytes
  lfsrJobid : Option Bytes
  lfsrValid : ScanValid
deriving DecidableEq, Repr

def scanClRecEvent (o : ScanClObj) : LlapiScanRec :=
  {
    lfsrFid := o.coFid
    lfsrParentFid := o.coPfid
    lfsrName := o.coName
    lfsrEventUid := o.coEventUid
    lfsrEventGid := o.coEventGid
    stxMode := o.coMode.toUInt16
    lfsrEventType := o.coType
    lfsrEventFlags := o.coFlags
    lfsrEventTime := o.coTime
    lfsrEventIndex := o.coIndex
    lfsrEventPrev := o.coPrev
    lfsrSrcFid := o.coSrcFid
    lfsrSrcParentFid := o.coSrcPfid
    lfsrSrcName := o.coSrcName
    lfsrJobid := o.coJobid
    lfsrValid := o.coValid
  }

-----------------------------------------------------------------------------------------
-- The scan's state
-----------------------------------------------------------------------------------------

/-- The parameters a scan depends on (`struct llapi_scan_changelog_param`), `sc_flags` as one
field a flag. Where to start is the reader's: it gives the records from there on.
-/
structure ScanParams where
  mdtname : Option Bytes := none
  user : Option Bytes := none
  mnt : Option Bytes := none
  typeMask : UInt64 := 0
  coalesce : Bool := false
  resolve : Bool := false
  clear : Bool := false
  once : Bool := false
  minAge : UInt32 := 0
  maxCached : UInt32 := 0
  endrec : UInt64 := 0

def scanClMinAgeDef : UInt32 := 600
def scanClMaxHold : Int := 6
def scanClMaxCachedDef : UInt32 := 100000
def scanClHashShift : Nat := 12
def scanClClearBatch : UInt64 := 1000

def ScanParams.slMinAge (sc : ScanParams) : UInt32 :=
  if sc.minAge != 0 then sc.minAge else scanClMinAgeDef

def ScanParams.slMaxCached (sc : ScanParams) : UInt32 :=
  if sc.maxCached != 0 then sc.maxCached else scanClMaxCachedDef

/-- The consumer: its filter, if it has one, and its callback, over data of its own. A resolve
only adds attributes to the record the callback is given, and is left to the callback.
-/
structure Consumer (σ : Type) where
  scFilter : Option (LlapiScanRec → σ → Int × σ)
  cb : LlapiScanRec → σ → Int × σ

/-- What the scan cannot decide: which allocations and which clears succeed, and what opening
the mount and the changelog returns.
-/
structure ScanEnv where
  memory : Memory := fun _ => true
  clearRc : Nat → Int := fun _ => 0
  mntRc : Int := 0
  startRc : Int := 0

/-- How an object leaves: taken by the callback, rejected by the filter, or dropped as a
repeat.
-/
inductive Settlement
  | taken
  | filtered
  | repeated
deriving DecidableEq, Repr

/-- What happens in a scan, as seen from outside: records read, objects settled together with
the records they were made of, objects there was no memory for, and clears.
-/
inductive ClEvent
  | read (r : ChangelogRec)
  | settled (fid : LuFid) (events : List ChangelogRec) (how : Settlement)
  | noMemory (fid : LuFid) (index : UInt64)
  | clear (upto : UInt64)
deriving DecidableEq, Repr

structure ScanStats where
  ssSeen : UInt64 := 0
  ssFiltered : UInt64 := 0
  ssEmitted : UInt64 := 0
deriving DecidableEq, Repr

/-- A pointer to a cached object: the number of the allocation that made it. -/
abbrev ObjPtr := Nat

/-- The state of a scan (`struct scan_cl`). A cached object is linked into the age list and into
the chain of its bucket, and counted in `sl_cached`; `objs` is what the pointers lead to.
`allocs` and `clears` count the calls made, `trace` is what happened.
-/
structure ScanCl (σ : Type) where
  slData : σ
  slLastCleared : UInt64 := 0
  slClearWalked : UInt64 := 0
  slAccepted : UInt64 := 0
  slNow : Int := 0
  slCached : UInt32 := 0
  slStopRc : Int := 0
  slStats : ScanStats := {}
  slSeen : ScanClSeen := {}
  slAged : List ObjPtr := []
  slHash : Fin (2 ^ scanClHashShift) → List ObjPtr := fun _ => []
  objs : ObjPtr → ScanClObj := fun _ => {}
  allocs : Nat := 0
  clears : Nat := 0
  trace : List ClEvent := []

variable {σ : Type}

/-- Raised, never lowered. -/
def scanClAccept (s : ScanCl σ) (index : UInt64) : ScanCl σ :=
  if index > s.slAccepted then { s with slAccepted := index } else s

def ScanCl.settle (s : ScanCl σ) (o : ScanClObj) (how : Settlement) : ScanCl σ :=
  { s with trace := s.trace ++ [.settled o.coFid o.coEvents how] }

-----------------------------------------------------------------------------------------
-- The cache
-----------------------------------------------------------------------------------------

def scanClBucket (fid : LuFid) : Fin (2 ^ scanClHashShift) := llapiFidHash fid scanClHashShift

def scanClFind (s : ScanCl σ) (fid : LuFid) : Option ObjPtr :=
  (s.slHash (scanClBucket fid)).find? fun p => (s.objs p).coFid == fid

/-- A node is taken out of the chain and of the list it is in. -/
def scanClUnlink (s : ScanCl σ) (p : ObjPtr) : ScanCl σ :=
  {
    s with
    slHash := fun bucket => (s.slHash bucket).erase p
    slAged := s.slAged.erase p
    slCached := s.slCached - 1
  }

/-- An object seen again keeps its place in the hash and goes to the back of the age list. -/
def ScanCl.requeue (s : ScanCl σ) (p : ObjPtr) (o : ScanClObj) : ScanCl σ :=
  { s with objs := Function.update s.objs p o, slAged := s.slAged.erase p ++ [p] }

/-- A new object goes to the back of the age list and to the front of its chain. -/
def ScanCl.link (s : ScanCl σ) (p : ObjPtr) (o : ScanClObj) : ScanCl σ :=
  {
    s with
    objs := Function.update s.objs p o
    slAged := s.slAged ++ [p]
    slHash :=
      Function.update s.slHash (scanClBucket o.coFid) (p :: s.slHash (scanClBucket o.coFid))
    slCached := s.slCached + 1
  }

section Functions

variable (sc : ScanParams) (env : ScanEnv) (consumer : Consumer σ)

/-- What the filter says of a record, 0 if there is none. -/
def Consumer.ask (rec : LlapiScanRec) (s : ScanCl σ) : Int × ScanCl σ :=
  match consumer.scFilter with
  | none => (0, s)
  | some scFilter =>
      let (rc, slData) := scFilter rec s.slData
      (rc, { s with slData })

def scanClDeliver (s : ScanCl σ) (o : ScanClObj) (keyed : Bool) : Int × ScanCl σ :=
  let once := keyed && sc.once
  let rec_ := scanClRecEvent o
  let (rc, s) := consumer.ask rec_ s
  if rc > 0 then
    let s := { s with slStats.ssFiltered := s.slStats.ssFiltered + 1 }
    (0, scanClAccept (s.settle o .filtered) o.coIndex)
  else if rc < 0 then
    (rc, s)
  else if once && s.slSeen.has o.coFid then
    (0, scanClAccept (s.settle o .repeated) o.coIndex)
  else
    let s := { s with slStats.ssEmitted := s.slStats.ssEmitted + 1 }
    let (rc, slData) := consumer.cb rec_ s.slData
    let s := { s with slData }
    if rc != 0 then
      (rc, s)
    else
      let s := s.settle o .taken
      if once then
        let (rc, allocs, slSeen) := s.slSeen.add env.memory s.allocs o.coFid
        let s := { s with slSeen, allocs }
        if rc < 0 then (rc, s) else (0, scanClAccept s o.coIndex)
      else
        (0, scanClAccept s o.coIndex)

/-- The loop of `scan_cl_flush` over the objects still in the cache, oldest first. -/
def flushLoop (all : Bool) : List ObjPtr → ScanCl σ → Int × ScanCl σ
  | [], s => (0, s)
  | p :: rest, s =>
      if !all && s.slNow - (s.objs p).coTime < sc.slMinAge.toNat then
        (0, s)
      else
        let (rc, s) := scanClDeliver sc env consumer s (s.objs p) true
        if rc != 0 then (rc, s) else flushLoop all rest (scanClUnlink s p)

def scanClFlush (s : ScanCl σ) (all : Bool) : Int × ScanCl σ :=
  flushLoop sc env consumer all s.slAged s

/-- The `do` loop of `scan_cl_event`: each object of the record, or none. -/
def eventLoop (r : ChangelogRec) : List (Option LuFid) → ScanCl σ → Int × ScanCl σ
  | [], s => (0, s)
  | fid :: rest, s =>
      let (one, allocs) := scanClAbsorb env.memory s.allocs {} r fid
      let (rc, s) := scanClDeliver sc env consumer { s with allocs } one false
      if rc != 0 then (rc, s) else eventLoop r rest s

def scanClEvent (s : ScanCl σ) (r : ChangelogRec) : Int × ScanCl σ :=
  let before := s.slAccepted
  let (rc, s) := eventLoop sc env consumer r (eventFids r) s
  if rc != 0 then (rc, { s with slAccepted := before }) else (0, s)

/-- An object seen again leaves the cache if it has been busy for too long. -/
def objectAgain (s : ScanCl σ) (r : ChangelogRec) (fid : LuFid) (p : ObjPtr)
    : Int × ScanCl σ :=
  let (o, allocs) := scanClAbsorb env.memory s.allocs (s.objs p) r (some fid)
  let s := { s with allocs }.requeue p o
  if o.coTime - o.coFirstTime ≥ sc.slMinAge.toNat * scanClMaxHold then
    let (rc, s) := scanClDeliver sc env consumer s o true
    if rc != 0 then (rc, s) else (0, scanClUnlink s p)
  else
    (0, s)

/-- A new object, which pushes the oldest one out if the cache is full. -/
def objectNew (s : ScanCl σ) (r : ChangelogRec) (fid : LuFid) : Int × ScanCl σ :=
  let p := s.allocs
  if !env.memory p then
    (-enomem, { s with allocs := p + 1, trace := s.trace ++ [.noMemory fid r.crIndex] })
  else
    let (o, allocs) := scanClAbsorb env.memory (p + 1) {} r (some fid)
    let o := { o with coFirst := o.coIndex, coFirstTime := o.coTime }
    let s := { s with allocs }.link p o
    if s.slCached > sc.slMaxCached then
      match s.slAged with
      | [] => (0, s)
      | old :: _ =>
          let (rc, s) := scanClDeliver sc env consumer s (s.objs old) true
          if rc != 0 then (rc, s) else (0, scanClUnlink s old)
    else
      (0, s)

def scanClObjectOne (s : ScanCl σ) (r : ChangelogRec) (fid : LuFid) : Int × ScanCl σ :=
  match scanClFind s fid with
  | some p => objectAgain sc env consumer s r fid p
  | none => objectNew sc env consumer s r fid

/-- The loop of `scan_cl_object`. -/
def objectLoop (r : ChangelogRec) : List LuFid → ScanCl σ → Int × ScanCl σ
  | [], s => (0, s)
  | fid :: rest, s =>
      let (rc, s) := scanClObjectOne sc env consumer s r fid
      if rc != 0 then (rc, s) else objectLoop r rest s

def scanClObject (s : ScanCl σ) (r : ChangelogRec) : Int × ScanCl σ :=
  let fids := scanClRecFids r
  if fids.isEmpty then scanClEvent sc env consumer s r
  else objectLoop sc env consumer r fids s

/-- The oldest record a cached object depends on, or 0 for an empty cache. -/
def scanClHeldFirst (s : ScanCl σ) : UInt64 :=
  s.slAged.foldl
    (fun first p =>
      if first == 0 || (s.objs p).coFirst < first then (s.objs p).coFirst else first)
    0

/-- What is accepted, but never past a record a cached object was built from. -/
def clearUpto (s : ScanCl σ) : UInt64 :=
  let held := scanClHeldFirst s
  if held != 0 && held - 1 < s.slAccepted then held - 1 else s.slAccepted

def scanClClear (s : ScanCl σ) (final : Bool) : ScanCl σ :=
  let upto := s.slAccepted
  if !sc.clear then
    s
  else if upto == 0 || upto == s.slLastCleared then
    s
  else if !final && upto - s.slClearWalked < scanClClearBatch then
    s
  else
    let s := { s with slClearWalked := upto }
    let upto := clearUpto s
    if upto == 0 || upto ≤ s.slLastCleared then
      s
    else
      let rc := env.clearRc s.clears
      let s := { s with clears := s.clears + 1, trace := s.trace ++ [.clear upto] }
      if rc < 0 then s else { s with slLastCleared := upto }

/-- One record: `rc` is what a consumer or a flush returned. -/
def scanRecord (s : ScanCl σ) (r : ChangelogRec) : Int × ScanCl σ :=
  let s := { s with slStats.ssSeen := s.slStats.ssSeen + 1 }
  let (crc, s) :=
    if sc.coalesce then scanClObject sc env consumer s r else scanClEvent sc env consumer s r
  if crc != 0 then
    (crc, s)
  else if sc.coalesce then
    scanClFlush sc env consumer s false
  else
    (0, s)

/-- The main loop over what the reader receives: records, and then `readEnd`, 1 at the end of
the log or a negative error.
-/
def scanLoop (readEnd : Int) : List ChangelogRec → ScanCl σ → Int × ScanCl σ
  | [], s => (readEnd, s)
  | r :: rest, s =>
      let s := { s with slNow := r.seconds, trace := s.trace ++ [.read r] }
      if sc.endrec != 0 && r.crIndex > sc.endrec then
        (0, s)
      else
        let (crc, s) := scanRecord sc env consumer s r
        if crc != 0 then
          (0, { s with slStopRc := crc })
        else
          let s := scanClClear sc env s false
          if sc.endrec != 0 && r.crIndex ≥ sc.endrec then (0, s) else scanLoop readEnd rest s

/-- What follows the loop: the last flush and the last clear. -/
def scanFinish (rc : Int) (s : ScanCl σ) : Int × ScanCl σ :=
  let rc := if rc == 1 then 0 else rc
  let s :=
    if s.slStopRc == 0 && sc.coalesce then
      let (frc, s) := scanClFlush sc env consumer s true
      if frc != 0 then { s with slStopRc := frc } else s
    else
      s
  let s := if rc ≥ 0 then scanClClear sc env s true else s
  (if s.slStopRc != 0 then s.slStopRc else rc, s)

/-- The checks on the parameters that come before anything is allocated. -/
def ScanParams.refused (sc : ScanParams) : Bool :=
  sc.mdtname.isNone
    || (sc.clear && sc.user.isNone)
    || (sc.resolve && sc.mnt.isNone)
    || (sc.once && !sc.coalesce)
    || (sc.typeMask != 0 && sc.user.isNone)
    || (sc.typeMask != 0 && sc.clear)

/-- A scan of one changelog, whose reader gives the records of `log` and then `readEnd`. -/
def llapiScanChangelog (log : List ChangelogRec) (readEnd : Int) (data : σ)
    : Int × ScanCl σ :=
  let s : ScanCl σ := { slData := data }
  if sc.refused then
    (-einval, s)
  else
    let s := { s with allocs := s.allocs + 1 }
    if !env.memory 0 then
      (-enomem, s)
    else if sc.resolve && env.mntRc < 0 then
      (env.mntRc, s)
    else if env.startRc < 0 then
      (env.startRc, s)
    else
      let (rc, s) := scanLoop sc env consumer readEnd log s
      scanFinish sc env consumer rc s

end Functions

end LfuScan.Changelog
