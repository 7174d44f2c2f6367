import LfuScan.ScanDevice.Ldiskfs
import LfuScan.ScanDevice.Stopping
import LfuScan.Device.Enumeration

/-! The ZFS backend of a scan of a target. A chunk is a walk by `dmu_object_next` from just
before its first number. Only `ESRCH` is the end of the object set: a lookup that fails fails
the chunk, so a sweep that returns zero has come across every object.
-/

namespace LfuScan.ScanDevice

open LfuScan.Lustre LfuScan.Foundations LfuScan.Filter

-----------------------------------------------------------------------------------------
-- One object
-----------------------------------------------------------------------------------------

/-- The ZPL attributes of one word the scan asks for. -/
inductive ZplAttr
  | mode
  | links
  | uid
  | gid
  | rdev
  | size
  | flags
  | projid
  | parent
  | gen
  | xattr

inductive ZplTime
  | atime
  | mtime
  | ctime
  | crtime

/-- `ZPL_DXATTR`: not there or empty, not to be read or unpacked, or a list of values. -/
inductive Dxattr
  | absent
  | failed
  | nvlist (lookup : ScanXattr → Option Bytes)

/-- A value in the xattr directory: no entry, an entry that cannot be followed, or one with
the size it has and the content unless that cannot be read.
-/
inductive Spill
  | absent
  | failed
  | value (size : UInt64) (content : Option Bytes)

/-- What the handle of an object answers. -/
structure SaHandle where
  lookup : ZplAttr → Except Int UInt64
  time : ZplTime → Option Int64
  dxattr : Dxattr
  spill : ScanXattr → Spill

/-- The types of a dnode the scan tells apart. -/
inductive DmuType
  | directoryContents
  | plainFileContents
  | uint8Metadata
  | other
deriving DecidableEq

/-- A dnode: its type, whether its bonus is an SA, the bonus buffer unless it cannot be held,
with its first word if it has one, and the handle unless the SA is damaged.
-/
structure Dnode where
  doiType : DmuType
  bonusSa : Bool
  bonus : Option (Option UInt32)
  handle : Option SaHandle
  doiMaxOffset : UInt64 := 0
  doiPhysicalBlocks512 : UInt64 := 0
  dnNumSlots : UInt64 := 0

/-- An object number that is allocated: whether the unlinked set has it, and the dnode unless
it cannot be held.
-/
structure ScanZfsObj where
  unlinked : Bool := false
  dnode : Option Dnode

def scanZfsAttrs (pflags : UInt64) : UInt32 :=
  (if pflags &&& Device.zfsImmutable != 0 then statxAttrImmutable else 0)
    ||| (if pflags &&& Device.zfsAppendonly != 0 then statxAttrAppend else 0)

/-- `XATTR_SIZE_MAX`. -/
def xattrSizeMax : UInt64 := 65536

/-- The value of an attribute out of the xattr directory; the inner `none` is normal. -/
def scanZfsSpill : Spill → Option (Option Bytes)
  | .absent => some none
  | .failed => none
  | .value size content =>
      if size > xattrSizeMax then
        none
      else if size == 0 then
        some (some [])
      else
        content.map some

/-- One attribute that was missing. -/
def spillInto (handle : SaHandle) (x : ScanXattr) (held : ScanXattr → Option Bytes)
    : Option (ScanXattr → Option Bytes) := do
  match ← scanZfsSpill (handle.spill x) with
  | none => return held
  | some value => return Function.update held x (some value)

def scanZfsReadXattrs (want : ScanXattr → Bool) (handle : SaHandle)
    : Option (ScanXattr → Option Bytes) := do
  let held : ScanXattr → Option Bytes ←
    match handle.dxattr with
    | .absent => some fun _ => none
    | .failed => none
    | .nvlist lookup => some fun x => if want x then lookup x else none
  let missing := scanXattrs.filter fun x => want x && (held x).isNone
  let haveDir :=
    match handle.lookup .xattr with
    | .ok xattrObj => xattrObj != 0
    | .error _ => false
  if missing.isEmpty || !haveDir then
    return held
  else
    missing.foldlM (fun held x => spillInto handle x held) held

/-- A value object of an xattr directory: no attributes but its size. -/
def scanZfsIsXattrValue (handle : SaHandle) (doiType : DmuType) : Bool :=
  let absent (a : ZplAttr) :=
    match handle.lookup a with
    | .ok _ => false
    | .error rc => rc == enoent
  if doiType ≠ .plainFileContents ∧ doiType ≠ .uint8Metadata then
    false
  else
    (handle.lookup .size).isOk && absent .links && absent .parent && absent .gen

/-- An attribute, zero where it is not there. -/
def SaHandle.word (handle : SaHandle) (a : ZplAttr) : UInt64 :=
  match handle.lookup a with
  | .ok value => value
  | .error _ => 0

def SaHandle.seconds (handle : SaHandle) (a : ZplTime) : Int64 := (handle.time a).getD 0

/-- The object before its attributes are read. -/
def scanZfsBare (id : UInt64) (dn : Dnode) (handle : SaHandle) (mode : UInt32) : LlapiScanObj :=
  let flags := handle.lookup .flags
  let known :=
    match handle.lookup .projid with
    | .ok _ => true
    | .error rc => rc == enoent
  {
    soId := id
    soMode := mode
    soNlink := (handle.word .links).toUInt32
    soUid := (handle.word .uid).toUInt32
    soGid := (handle.word .gid).toUInt32
    soRdev := if sIschr mode || sIsblk mode then (handle.word .rdev).toUInt32 else 0
    soSize := if sIsdir mode then dn.doiMaxOffset else handle.word .size
    soFlags := if flags.isOk then scanZfsAttrs (handle.word .flags) else 0
    soAttrsMask := if flags.isOk then statxAttrImmutable ||| statxAttrAppend else 0
    soProjid := (handle.word .projid).toUInt32
    soAtime := handle.seconds .atime
    soMtime := handle.seconds .mtime
    soCtime := handle.seconds .ctime
    soBtime := handle.seconds .crtime
    soValid := (if known then scanSoProjid else 0)
      ||| (if (handle.time .crtime).isSome then scanSoBtime else 0)
    soBlocks := dn.doiPhysicalBlocks512 + dn.dnNumSlots
  }

/-- An object, if there is something to describe in it. -/
def scanZfsReadObj (want : ScanXattr → Bool) (id : UInt64) (obj : ScanZfsObj) : Option Item :=
  if obj.unlinked then
    none
  else
    match obj.dnode with
    | none => some (.unread .io io_early)
    | some dn =>
        if !dn.bonusSa then
          none
        else
          match dn.bonus with
          | none => some (.unread .io io_early)
          | some head =>
              -- an xattr directory, its SA never written
              if dn.doiType = .directoryContents ∧ head = some 0 then
                none
              else
                match dn.handle with
                | none => some (.unread .invalid invalid_early)
                | some handle =>
                    match handle.lookup .mode with
                    | .error _ =>
                        if scanZfsIsXattrValue handle dn.doiType then none
                        else some (.unread .invalid invalid_early)
                    | .ok mode =>
                        let bare := scanZfsBare id dn handle mode.toUInt32
                        some (.object bare
                          ((scanZfsReadXattrs want handle).map fun soXattr =>
                            { bare with soXattr }))

/-- What one `dmu_object_next` after another gives: `ESRCH`, another error, or an object. -/
inductive ObjectCalls
  | ended
  | failed
  | object (id : UInt64) (obj : ScanZfsObj) (rest : ObjectCalls)

/-- The open object set: what the calls give from an object number on. -/
structure ScanZfsTgt where
  calls : UInt64 → ObjectCalls

/-- The object loop of `scan_zfs_scan_chunk`, while the sink lets it go on. -/
def scanZfsLoop (want : ScanXattr → Bool) (endId : UInt64) : ObjectCalls → List Item × ChunkEnd
  | .ended => ([], .done)
  | .failed => ([], .failed (-eio) eio_negative)
  | .object id obj rest =>
      if id ≥ endId then
        ([], .more)
      else
        let (items, ends) := scanZfsLoop want endId rest
        ((scanZfsReadObj want id obj).toList ++ items, ends)

/-- `SCAN_CHUNK_OBJS` is the width of a chunk here as it is there. -/
def scanZfsScanChunk (t : ScanZfsTgt) (want : ScanXattr → Bool) (idx : Nat)
    : List Item × ChunkEnd :=
  scanZfsLoop want (Device.chunkStart idx + Device.lfuChunk) (t.calls (Device.chunkCursor idx))

def scanZfsBackend (t : ScanZfsTgt) (want : ScanXattr → Bool) : Backend where
  chunk idx := (scanZfsScanChunk t want idx).1
  ends idx := (scanZfsScanChunk t want idx).2

def dnMaxObject : Nat := 2 ^ 48

/-- `tt_chunks` of every object set. -/
def scanChunksMax : Nat := dnMaxObject / 65536

/-- The chunks have room for every object number. -/
example : scanChunksMax * 65536 = dnMaxObject := by decide

-----------------------------------------------------------------------------------------
-- The object set
-----------------------------------------------------------------------------------------

/-- The allocated objects with their numbers, in order. -/
abbrev ZfsObjects := List (UInt64 × ScanZfsObj)

/-- What the calls give from a position on, with these objects behind it; a call fails where
a read does.
-/
def objectCalls (readError : UInt64 → Bool) : UInt64 → ZfsObjects → ObjectCalls
  | position, [] => if readError position then .failed else .ended
  | position, (id, obj) :: rest =>
      if readError position then .failed else .object id obj (objectCalls readError id rest)

/-- `dmu_object_next` finds the objects: from every position those with a greater number, in
ascending order.
-/
structure ScanZfsTgt.Enumerates (t : ScanZfsTgt) (objects : ZfsObjects)
    (readError : UInt64 → Bool)
    : Prop where
  ascending : objects.Pairwise fun a b => a.1.toNat < b.1.toNat
  numbered : ∀ entry ∈ objects, entry.1 ≠ 0
  calls
    : ∀ position,
        t.calls position
          = objectCalls readError position (objects.filter fun entry => position < entry.1)

/-- What the scan comes across at an object. -/
def objectItems (want : ScanXattr → Bool) (entry : UInt64 × ScanZfsObj) : List Item :=
  (scanZfsReadObj want entry.1 entry.2).toList

/-- What the loop takes, and how it ends: all objects before its bound unless a call fails,
nothing if there are none, and the end of the object set only where nothing is behind.
-/
structure ObjectsLooped (want : ScanXattr → Bool) (endId : UInt64) (entries : ZfsObjects)
    (readError : UInt64 → Bool) (looped : List Item × ChunkEnd)
    : Prop where
  items
    : (∀ rc negative, looped.2 ≠ .failed rc negative)
      → looped.1
        = (entries.filter fun entry => decide (entry.1 < endId)).flatMap (objectItems want)
  nothing : (∀ entry ∈ entries, endId ≤ entry.1) → looped.1 = []
  ended : looped.2 = .done → ∀ entry ∈ entries, entry.1 < endId
  scans : (∀ position, readError position = false) → ∀ rc negative, looped.2 ≠ .failed rc negative

theorem ObjectsLooped.failed {want : ScanXattr → Bool} {endId : UInt64} {entries : ZfsObjects}
    {readError : UInt64 → Bool} {position : UInt64} (error : readError position = true)
    : ObjectsLooped want endId entries readError ([], .failed (-eio) eio_negative) := by
  refine ⟨fun scans => absurd rfl (scans _ _), fun _ => rfl, ?_, fun fine => ?_⟩
  · intro ended
    cases ended
  · rw [fine] at error
    cases error

theorem ObjectsLooped.beyond {want : ScanXattr → Bool} {endId : UInt64} {entries : ZfsObjects}
    {readError : UInt64 → Bool} (behind : ∀ entry ∈ entries, endId ≤ entry.1)
    : ObjectsLooped want endId entries readError ([], .more) := by
  have none_ : entries.filter (fun entry => decide (entry.1 < endId)) = [] :=
    List.filter_eq_nil_iff.mpr fun entry member =>
      mt of_decide_eq_true (UInt64.not_lt.mpr (behind entry member))
  refine ⟨fun _ => by rw [none_]; rfl, fun _ => rfl, ?_, fun _ _ _ => ChunkEnd.noConfusion⟩
  intro ended
  cases ended

theorem scanZfsLoop_objects (want : ScanXattr → Bool) (endId : UInt64)
    (readError : UInt64 → Bool) (entries : ZfsObjects)
    (sorted : entries.Pairwise fun a b => a.1.toNat < b.1.toNat) (position : UInt64)
    : ObjectsLooped want endId entries readError
        (scanZfsLoop want endId (objectCalls readError position entries)) := by
  induction entries generalizing position with
  | nil =>
      rw [objectCalls]
      by_cases error : readError position
      · rw [if_pos error]
        exact .failed error
      · rw [if_neg error]
        refine ⟨fun _ => rfl, fun _ => rfl, fun _ _ member => ?_, fun _ _ _ => ChunkEnd.noConfusion⟩
        cases member
  | cons entry rest ih =>
      obtain ⟨id, obj⟩ := entry
      obtain ⟨first, sorted⟩ := List.pairwise_cons.mp sorted
      rw [objectCalls]
      by_cases error : readError position
      · rw [if_pos error]
        exact .failed error
      · rw [if_neg error, scanZfsLoop]
        by_cases beyond : id ≥ endId
        · -- the objects are in order, so the others are behind as well
          have behind (other : UInt64 × ScanZfsObj) (member : other ∈ (id, obj) :: rest)
              : endId ≤ other.1 := by
            rcases List.mem_cons.mp member with rfl | later
            · exact beyond
            · have order : id.toNat < other.1.toNat := first other later
              rw [ge_iff_le, UInt64.le_iff_toNat_le] at beyond
              rw [UInt64.le_iff_toNat_le]
              omega
          rw [if_pos beyond]
          exact .beyond behind
        · have next := ih sorted id
          have within := UInt64.not_le.mp beyond
          rw [if_neg beyond]
          refine ⟨fun scans => ?_, fun all => ?_, fun ended other member => ?_, next.scans⟩
          · have kept
                : ((id, obj) :: rest).filter (fun entry => decide (entry.1 < endId))
                  = (id, obj) :: rest.filter fun entry => decide (entry.1 < endId) :=
              List.filter_cons_of_pos (decide_eq_true within)
            rw [kept, List.flatMap_cons, ← next.items scans]
            rfl
          · exact absurd (all _ List.mem_cons_self) beyond
          · rcases List.mem_cons.mp member with rfl | later
            · exact within
            · exact next.ended ended other later

-----------------------------------------------------------------------------------------
-- The chunks of the object set
-----------------------------------------------------------------------------------------

/-- The objects of a chunk. -/
def chunkObjects (objects : ZfsObjects) (idx : Nat) : ZfsObjects :=
  objects.filter fun entry =>
    decide (idx * 65536 ≤ entry.1.toNat ∧ entry.1.toNat < (idx + 1) * 65536)

/-- What a chunk takes of the object set, and what it says by ending. -/
structure ZfsChunked (t : ScanZfsTgt) (want : ScanXattr → Bool) (objects : ZfsObjects)
    (idx : Nat)
    : Prop where
  items
    : (scanZfsBackend t want).Scans idx
      → (scanZfsBackend t want).chunk idx = (chunkObjects objects idx).flatMap (objectItems want)
  nothing : chunkObjects objects idx = [] → (scanZfsBackend t want).chunk idx = []
  ended
    : (scanZfsBackend t want).ends idx = .done
      → ∀ later, idx < later → chunkObjects objects later = []

section Objects

variable {t : ScanZfsTgt} {want : ScanXattr → Bool} {objects : ZfsObjects}
  {readError : UInt64 → Bool} (enumerates : t.Enumerates objects readError)
include enumerates

theorem scanZfsScanChunk_looped (idx : Nat)
    : ObjectsLooped want (Device.chunkStart idx + Device.lfuChunk)
        (objects.filter fun entry => decide (Device.chunkCursor idx < entry.1)) readError
        (scanZfsScanChunk t want idx) := by
  rw [scanZfsScanChunk, enumerates.calls]
  exact scanZfsLoop_objects want _ readError _ (enumerates.ascending.filter _) _

theorem scanZfsScanChunk_objects {idx : Nat} (small : idx < scanChunksMax)
    : ZfsChunked t want objects idx := by
  have fits : (idx + 1) * 65536 < 2 ^ 64 := by
    have bound : idx < 2 ^ 32 := small
    omega
  obtain ⟨_, stop⟩ := Device.chunkStart_toNat fits
  have looped
      : ObjectsLooped want (Device.chunkStart idx + Device.lfuChunk)
          (objects.filter fun entry => decide (Device.chunkCursor idx < entry.1)) readError
          (scanZfsScanChunk t want idx) :=
    scanZfsScanChunk_looped enumerates idx
  -- the two bounds of the walk are those of the chunk
  have bounds (entry : UInt64 × ScanZfsObj) (member : entry ∈ objects)
      : Device.chunkCursor idx < entry.1 ↔ idx * 65536 ≤ entry.1.toNat := by
    rw [Device.chunkCursor_lt_iff fits]
    exact and_iff_right (enumerates.numbered entry member)
  have below (id : UInt64)
      : id < Device.chunkStart idx + Device.lfuChunk ↔ id.toNat < (idx + 1) * 65536 := by
    rw [UInt64.lt_iff_toNat_lt, stop]
  have mine
      : (objects.filter fun entry => decide (Device.chunkCursor idx < entry.1)).filter
            (fun entry => decide (entry.1 < Device.chunkStart idx + Device.lfuChunk))
        = chunkObjects objects idx := by
    rw [List.filter_filter]
    refine List.filter_congr fun entry member => ?_
    simp only [bounds entry member, below, Bool.decide_and, Bool.and_comm]
  refine ⟨fun scans => ?_, fun none_ => ?_, fun ended later after => ?_⟩
  · rw [← mine]
    exact looped.items scans
  · refine looped.nothing fun entry member => ?_
    by_contra within
    have inside : entry ∈ chunkObjects objects idx := by
      rw [← mine]
      exact List.mem_filter.mpr ⟨member, decide_eq_true (UInt64.not_le.mp within)⟩
    rw [none_] at inside
    cases inside
  · refine List.filter_eq_nil_iff.mpr fun entry member => mt of_decide_eq_true ?_
    rintro ⟨lower, _⟩
    have reached : (idx + 1) * 65536 ≤ later * 65536 := Nat.mul_le_mul_right _ after
    have above := (bounds entry member).mpr
      ((Nat.mul_le_mul_right 65536 (Nat.le_of_lt after)).trans lower)
    have within := looped.ended ended entry (List.mem_filter.mpr ⟨member, decide_eq_true above⟩)
    rw [below] at within
    omega

theorem scanZfsBackend_doneSound {chunks : Nat} (few : chunks ≤ scanChunksMax)
    : (scanZfsBackend t want).DoneSound chunks := by
  intro idx ended later after below
  have before : ZfsChunked t want objects idx :=
    scanZfsScanChunk_objects enumerates (by omega)
  have here : ZfsChunked t want objects later :=
    scanZfsScanChunk_objects enumerates (by omega)
  exact here.nothing (before.ended ended later after)

/-- Where every chunk before a reported end was scanned, the chunks are the object set. -/
theorem scanZfsBackend_items {chunks : Nat} (few : chunks ≤ scanChunksMax)
    (covers : ∀ entry ∈ objects, entry.1.toNat < chunks * 65536)
    (scanned
      : ∀ idx < chunks,
          (∃ last < idx, (scanZfsBackend t want).ends last = .done)
          ∨ (scanZfsBackend t want).Scans idx)
    : (scanZfsBackend t want).items chunks = objects.flatMap (objectItems want) := by
  have taken (idx : Nat) (below : idx < chunks)
      : (scanZfsBackend t want).chunk idx
        = (chunkObjects objects idx).flatMap (objectItems want) := by
    have chunked (idx : Nat) (below : idx < chunks) : ZfsChunked t want objects idx :=
      scanZfsScanChunk_objects enumerates (Nat.lt_of_lt_of_le below few)
    rcases scanned idx below with ⟨last, before, done⟩ | scans
    · have none_ := (chunked last (by omega)).ended done idx before
      rw [none_]
      exact (chunked idx below).nothing none_
    · exact (chunked idx below).items scans
  have whole : objects.filter (fun entry => decide (entry.1.toNat < chunks * 65536)) = objects :=
    List.filter_eq_self.mpr fun entry member => decide_eq_true (covers entry member)
  calc (scanZfsBackend t want).items chunks
      = (List.range chunks).flatMap fun idx =>
          (chunkObjects objects idx).flatMap (objectItems want) :=
        List.flatMap_congr fun idx member => taken idx (List.mem_range.mp member)
    _ = ((List.range chunks).flatMap (chunkObjects objects)).flatMap (objectItems want) :=
        List.flatMap_assoc.symm
    _ = objects.flatMap (objectItems want) := by
        conv_rhs => rw [← whole, ← filter_chunks enumerates.ascending]
        rfl

end Objects

section Target

variable {host : Host} {dev : ScanDev} {nworkers : Nat} {stats out : LlapiScanStats}
  {trace : List SweepLabel} {s : Sweep} {rc : Int}

/-- A sweep of a ZFS target that returns zero has handed over the records of the object set,
each once, and counted each object once, also where lookups can fail: a read error is never
taken for the end. Where none fails and no consumer stops it, the sweep does return zero.
-/
theorem zfs_target_exact (t : ScanZfsTgt) (objects : ZfsObjects) (readError : UInt64 → Bool)
    (enumerates : t.Enumerates objects readError)
    (few : dev.sdTgtInfo.ttChunks ≤ scanChunksMax)
    (covers : ∀ entry ∈ objects, entry.1.toNat < dev.sdTgtInfo.ttChunks * 65536)
    (some : 0 < nworkers) {bufs : Nat → ScanBuf} (sized : ∀ i, (bufs i).Sized host)
    (run
      : Run (SweepStep host dev (scanZfsBackend t (scanWantXattr dev.sdWant)) nworkers stats)
          (.begin dev bufs) trace s)
    (returned : s.main = .returned rc out)
    : (rc = 0 →
        (handedOver trace).Perm
          ((objects.flatMap (objectItems (scanWantXattr dev.sdWant))).filterMap
            (itemRecord host dev))
        ∧ out
          = stats
            + ((objects.flatMap (objectItems (scanWantXattr dev.sdWant))).map
                (itemCounts host dev)).sum)
      ∧ ((∀ position, readError position = false) → (∀ value, ¬ Answered trace value)
          → rc = 0) := by
  have sound
      : (scanZfsBackend t (scanWantXattr dev.sdWant)).DoneSound dev.sdTgtInfo.ttChunks :=
    scanZfsBackend_doneSound enumerates few
  have inv := Delivering.run sound some sized run
  constructor
  · intro zero
    subst zero
    have scanned (idx : Nat) (below : idx < dev.sdTgtInfo.ttChunks) :=
      (Returning.run some sized run).scanned returned below
    rw [← scanZfsBackend_items enumerates few covers scanned]
    exact inv.exact returned
  · intro fine unanswered
    refine inv.sweeping.returns_zero returned (fun idx => ?_) unanswered
    exact (scanZfsScanChunk_looped enumerates idx).scans fine

/-- A dnode that is not a file, and a file behind it. -/
def twoDnodes : ZfsObjects :=
  [
    (1, { dnode := some { doiType := .other, bonusSa := false, bonus := none, handle := none } }),
    (
      12,
      {
        dnode := some {
          doiType := .plainFileContents
          bonusSa := true
          bonus := some none
          handle := some {
            lookup := fun _ => .ok 0o100644
            time := fun _ => none
            dxattr := .absent
            spill := fun _ => .absent
          }
        }
      })
  ]

def twoDnodesTgt : ScanZfsTgt where
  calls position :=
    objectCalls (fun at_ => at_ == 100) position
      (twoDnodes.filter fun entry => position < entry.1)

/-- The file is handed over. -/
theorem zfs_target_twoDnodes
    : ∃ trace : List SweepLabel,
        (handedOver trace).length = 1
        ∧ (handedOver trace).Perm
            ((twoDnodes.flatMap (objectItems (scanWantXattr 0))).filterMap
              (itemRecord oneHost oneDev)) := by
  have enumerates : twoDnodesTgt.Enumerates twoDnodes (fun at_ => at_ == 100) :=
    ⟨by decide, by decide, fun _ => rfl⟩
  have holds : ∃ bare obj,
      (scanZfsBackend twoDnodesTgt (scanWantXattr 0)).chunk 0 = [.object bare (.some obj)]
      ∧ (objectSink oneHost oneDev obj).2.isSome :=
    ⟨_, _, rfl, by decide +kernel⟩
  obtain ⟨bare, obj, holds, shown⟩ := holds
  obtain ⟨trace, s, record, out, run, returned, handed, _⟩ := oneObject_sweep holds rfl shown
  refine ⟨trace, by rw [handed]; rfl, ?_⟩
  exact ((zfs_target_exact twoDnodesTgt twoDnodes _ enumerates (by decide) (by decide)
    Nat.zero_lt_one (fun _ => ScanBuf.cleared_sized oneHost) run returned).1 rfl).1

end Target

end LfuScan.ScanDevice
