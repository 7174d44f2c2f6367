import LfuScan.Device.Ldiskfs

/-! The device scanner for ZFS targets: a chunk is a range of object numbers. -/

namespace LfuScan.Device

open LfuScan.Lustre LfuScan.Filter LfuScan.Core

/-- `LFU_CHUNK`. -/
def lfuChunk : UInt64 := 65536

-----------------------------------------------------------------------------------------
-- One object
-----------------------------------------------------------------------------------------

/-- What reading the attribute list of a znode gives: no list, a list that cannot be read or
unpacked, or its values.
-/
inductive Dxattr
  | absent
  | unreadable
  | unpacked (lma : LfuEa) (named : XattrName → LfuEa)

/-- What the calls for one object give: the holds, the bonus, the system attributes (`none`
for a failed lookup; of a time, its seconds), the space used, and the attribute list.
-/
structure ZfsObject where
  dnodeHold : Bool := true
  bonusIsSa : Bool := true
  bonusSize : UInt64 := 0
  bonusHold : Bool := true
  saHandle : Bool := true
  mode : Option UInt64 := none
  links : Option UInt64 := none
  size : Option UInt64 := none
  uid : Option UInt64 := none
  gid : Option UInt64 := none
  projid : Option UInt64 := none
  pflags : Option UInt64 := none
  atime : Option UInt64 := none
  mtime : Option UInt64 := none
  ctime : Option UInt64 := none
  crtime : Option UInt64 := none
  physicalBlocks : UInt64 := 0
  dxattr : Dxattr := .absent

def zfsImmutable : UInt64 := 0x0000001000000000
def zfsAppendonly : UInt64 := 0x0000004000000000
def zfsNodump : UInt64 := 0x0000008000000000

/-- The attribute bits of a record, from those of ZFS. -/
def lfuZfsAttrs (pflags : UInt64) : UInt32 :=
  (if pflags &&& zfsImmutable != 0 then lfuAttrImmutable else 0)
    ||| (if pflags &&& zfsAppendonly != 0 then lfuAttrAppend else 0)
    ||| (if pflags &&& zfsNodump != 0 then lfuAttrNodump else 0)

/-- The record before the attribute list is looked at, once mode and links are known. -/
def zfsTier0 (id : UInt64) (obj : ZfsObject) (mode links : UInt64) : LfuRec :=
  let time (stamp : Option UInt64) : UInt32 := (stamp.map UInt64.toUInt32).getD 0
  {
    id
    mode := mode.toUInt16
    nlink := links.toUInt32
    size := obj.size.getD 0
    uid := (obj.uid.getD 0).toUInt32
    gid := (obj.gid.getD 0).toUInt32
    projid := (obj.projid.getD 0).toUInt32
    flags := (obj.pflags.map lfuZfsAttrs).getD 0
    atime := time obj.atime
    mtime := time obj.mtime
    ctime := time obj.ctime
    crtime := time obj.crtime
    blocks := obj.physicalBlocks
  }

/-- The LMA of an unpacked list, in the byte order of the host. -/
def zfsLma (order : ByteOrder) (value : LfuEa) : LustreMdtAttrs × Bool :=
  match value with
  | none => ({}, false)
  | some b =>
      if b.length < lustreMdtAttrsSize then
        ({}, false)
      else
        (
          {
            lmaCompat := lfuHost32 order b 0
            lmaIncompat := lfuHost32 order b 4
            lmaSelfFid :=
              {
                fSeq := lfuHost64 order b 8
                fOid := lfuHost32 order b 16
                fVer := lfuHost32 order b 20
              }
          },
          true)

/-- The demanded values of an unpacked list. -/
def zfsEas (needs : UInt32) (named : XattrName → LfuEa) : LfuEas :=
  let ea (name : XattrName) : LfuEa := if needsHas needs name then named name else none
  { som := ea .som, lov := ea .lov, lmv := ea .lmv, link := ea .link }

/-- What follows the prefilter: no attribute list, a bad one, or the values in it. -/
def zfsListed (env : Platform) (cx : LfuCtx) (tier0 : LfuRec) (dxattr : Dxattr)
    : Int × LfuCtx × List Line :=
  match dxattr with
  | .absent => (0, lfuObject env (bump cx { noDxattr := 1 }) tier0 false (some {}))
  | .unreadable => (-2, cx, [])
  | .unpacked lma named =>
      let (lma, haveLma) := zfsLma env.order lma
      (0, lfuObject env cx (withLma tier0 lma haveLma) haveLma (some (zfsEas cx.needs named)))

/-- Read one object: `0` for a record handed to the core, `-1` for something that is not a
znode, `-2` for a failed read, `-3` for a rejected one.
-/
def lfuZfsReadObj (env : Platform) (id : UInt64) (obj : ZfsObject) (cx : LfuCtx)
    : Int × LfuCtx × List Line :=
  if !obj.dnodeHold then
    (-2, cx, [])
  else if !obj.bonusIsSa then
    (-1, cx, [])
  else
    let cx := bump cx { maxBonus := obj.bonusSize }
    if !obj.bonusHold || !obj.saHandle then
      (-2, cx, [])
    else
      match obj.mode, obj.links with
      | some mode, some links =>
          let tier0 := zfsTier0 id obj mode links
          let cx := if tier0.nlink == 0 then bump cx { unlinked := 1 } else cx
          let (survives, cx) := lfuPrefilter cx tier0
          if !survives then (-3, cx, []) else zfsListed env cx tier0 obj.dxattr
      | _, _ => (-2, cx, [])

/-- What one `dmu_object_next` gives: an error, or an object and what reading it gives. -/
inductive NextObject
  | failed (err : Int)
  | object (id : UInt64) (obj : ZfsObject)

/-- An open target: what the calls for the next object give from an object number on. -/
structure LfuZfs where
  nextObjects : UInt64 → List NextObject

/-- The body of the object loop, for an object of the chunk. -/
def zfsObject (env : Platform) (cx : LfuCtx) (id : UInt64) (obj : ZfsObject)
    : LfuCtx × List Line :=
  let (rc, cx, lines) := lfuZfsReadObj env id obj (bump cx { seen := 1 })
  if rc == -1 then
    (bump cx { notZnode := 1 }, lines)
  else if rc == -2 then
    (bump cx { saFail := 1 }, lines)
  else
    (cx, lines)

/-- The object loop: the context and lines after it, and `*done` on return, or `none` while
it waits for the next object.
-/
def zfsLoop (env : Platform) (endId : UInt64)
    : LfuCtx → List NextObject → LfuCtx × List Line × Option Bool
  | cx, [] => (cx, [], if cx.stop then some false else none)
  | cx, next :: rest =>
      if cx.stop then
        (cx, [], some false)
      else
        match next with
        | .failed _ => (cx, [], some true)
        | .object id obj =>
            if id ≥ endId then
              (cx, [], some false)
            else
              let first := zfsObject env cx id obj
              let others := zfsLoop env endId first.1 rest
              (others.1, first.2 ++ others.2.1, others.2.2)

/-- The first object number of a chunk. -/
def chunkStart (idx : Nat) : UInt64 := UInt64.ofNat idx * lfuChunk

/-- The position before a chunk. -/
def chunkCursor (idx : Nat) : UInt64 :=
  if chunkStart idx != 0 then chunkStart idx - 1 else 0

def lfuZfsScanChunk (env : Platform) (z : LfuZfs) (cx : LfuCtx) (idx : Nat)
    : LfuCtx × List Line × Option Bool :=
  zfsLoop env (chunkStart idx + lfuChunk) cx (z.nextObjects (chunkCursor idx))

-----------------------------------------------------------------------------------------
-- The chunks as the pool sees them
-----------------------------------------------------------------------------------------

/-- A visit after the prefilter. The one that fails there is counted by its own side only if
it survived, and by the prefilter otherwise.
-/
def listedVisit (env : Platform) (base : LfuCtx) (own : LfuStats) (tier0 : LfuRec)
    (dxattr : Dxattr)
    : Visit :=
  match dxattr with
  | .absent =>
      if (lfuPrefilter base tier0).1 then
        { own := own + { noDxattr := 1 }, object := some (tier0, false, some {}) }
      else
        { own, object := some (tier0, false, some {}) }
  | .unreadable =>
      { own := own + if (lfuPrefilter base tier0).1 then { saFail := 1 } else { filtered := 1 } }
  | .unpacked lma named =>
      let (lma, haveLma) := zfsLma env.order lma
      {
        own
        object := some (withLma tier0 lma haveLma, haveLma, some (zfsEas base.needs named))
      }

/-- The counters of the exit an object takes before the core sees it, and the object it is
otherwise.
-/
def zfsVisit (env : Platform) (base : LfuCtx) (id : UInt64) (obj : ZfsObject) : Visit :=
  if !obj.dnodeHold then
    { own := { seen := 1, saFail := 1 } }
  else if !obj.bonusIsSa then
    { own := { seen := 1, notZnode := 1 } }
  else if !obj.bonusHold || !obj.saHandle then
    { own := { seen := 1, saFail := 1, maxBonus := obj.bonusSize } }
  else
    match obj.mode, obj.links with
    | some mode, some links =>
        let tier0 := zfsTier0 id obj mode links
        listedVisit env base
          {
            seen := 1
            unlinked := if tier0.nlink == 0 then 1 else 0
            maxBonus := obj.bonusSize
          }
          tier0 obj.dxattr
    | _, _ => { own := { seen := 1, saFail := 1, maxBonus := obj.bonusSize } }

/-- The objects that belong to a chunk, and how the chunk ends. -/
def splitObjects (endId : UInt64)
    : List NextObject → List (UInt64 × ZfsObject) × Option Bool
  | [] => ([], none)
  | .failed _ :: _ => ([], some true)
  | .object id obj :: rest =>
      if id ≥ endId then
        ([], some false)
      else
        let (objects, done) := splitObjects endId rest
        ((id, obj) :: objects, done)

def LfuZfs.chunk (z : LfuZfs) (idx : Nat) : List (UInt64 × ZfsObject) × Option Bool :=
  splitObjects (chunkStart idx + lfuChunk) (z.nextObjects (chunkCursor idx))

def zfsBackend (env : Platform) (z : LfuZfs) (base : LfuCtx) : Backend where
  chunk idx := (z.chunk idx).1.map (fun entry => zfsVisit env base entry.1 entry.2)
  mayFinish idx done := (z.chunk idx).2 = some done
  mayFail _ := False

/-- What the loop does with the code of a read. -/
def countRead (answer : Int × LfuCtx × List Line) : LfuCtx × List Line :=
  if answer.1 == -1 then
    (bump answer.2.1 { notZnode := 1 }, answer.2.2)
  else if answer.1 == -2 then
    (bump answer.2.1 { saFail := 1 }, answer.2.2)
  else
    answer.2

theorem zfsListed_eq (env : Platform) (cx : LfuCtx) (own : LfuStats) (tier0 : LfuRec)
    (dxattr : Dxattr)
    : countRead
        (let (survives, cx) := lfuPrefilter (bump cx own) tier0
        if !survives then (-3, cx, []) else zfsListed env cx tier0 dxattr)
      = visitEntry env cx (listedVisit env cx own tier0 dxattr) := by
  rw [lfuPrefilter_eq (bump cx own) cx rfl]
  cases dxattr with
  | absent =>
      cases survives : (lfuPrefilter cx tier0).1 with
      | true =>
          simp only [listedVisit, survives, if_true, visitEntry_object, ← bump_bump]
          rfl
      | false =>
          simp only [listedVisit, survives, Bool.false_eq_true, if_false, visitEntry_object]
          rfl
  | unreadable =>
      cases survives : (lfuPrefilter cx tier0).1 with
      | true =>
          simp only [listedVisit, survives, if_true, visitEntry_own, ← bump_bump]
          rfl
      | false =>
          simp only [listedVisit, survives, Bool.false_eq_true, if_false, visitEntry_own,
            ← bump_bump]
          rfl
  | unpacked lma named =>
      simp only [listedVisit, visitEntry_object, lfuPrefilter_withLma]
      cases (lfuPrefilter cx tier0).1 <;> rfl

/-- An object goes through the pipeline as its visit does. -/
theorem zfsObject_eq (env : Platform) (cx : LfuCtx) (id : UInt64) (obj : ZfsObject)
    : zfsObject env cx id obj = visitEntry env cx (zfsVisit env cx id obj) := by
  have switch : zfsObject env cx id obj
      = countRead (lfuZfsReadObj env id obj (bump cx { seen := 1 })) := rfl
  have bonus : ({ seen := 1 } + { maxBonus := obj.bonusSize } : LfuStats)
      = { seen := 1, maxBonus := obj.bonusSize } := by
    ext <;> simp [stats_add_eq, lfuStatsMerge]
  have unread : ({ seen := 1, maxBonus := obj.bonusSize } + { saFail := 1 } : LfuStats)
      = { seen := 1, saFail := 1, maxBonus := obj.bonusSize } := by
    ext <;> simp [stats_add_eq, lfuStatsMerge]
  rw [switch]
  unfold lfuZfsReadObj zfsVisit
  simp only [bump_bump, bonus]
  split
  · simp only [countRead, visitEntry_own, bump_bump]
    rfl
  · split
    · simp only [countRead, visitEntry_own, bump_bump]
      rfl
    · split
      · simp only [visitEntry_own, ← unread, ← bump_bump]
        rfl
      · cases obj.mode with
        | none =>
            simp only [visitEntry_own, ← unread, ← bump_bump]
            rfl
        | some mode =>
            cases obj.links with
            | none =>
                simp only [visitEntry_own, ← unread, ← bump_bump]
                rfl
            | some links =>
                simp only [← zfsListed_eq]
                generalize zfsTier0 id obj mode links = tier0
                have counted
                    : (if (tier0.nlink == 0) = true then
                        bump cx ({ seen := 1, maxBonus := obj.bonusSize } + { unlinked := 1 })
                      else
                        bump cx { seen := 1, maxBonus := obj.bonusSize })
                      = bump cx
                          {
                            seen := 1
                            unlinked := if tier0.nlink == 0 then 1 else 0
                            maxBonus := obj.bonusSize
                          } := by
                  split
                  · refine congrArg (bump cx) ?_
                    ext <;> simp [stats_add_eq, lfuStatsMerge]
                  · rfl
                rw [counted]

/-- A visit is the same for every worker of a scan. -/
theorem zfsVisit_base (env : Platform) {cx base : LfuCtx} (same : cx.base = base.base)
    (id : UInt64) (obj : ZfsObject)
    : zfsVisit env cx id obj = zfsVisit env base id obj := by
  have survives (rec : LfuRec) : (lfuPrefilter cx rec).1 = (lfuPrefilter base rec).1 := by
    rw [lfuPrefilter_eq cx base same]
    cases (lfuPrefilter base rec).1 <;> rfl
  have needs : cx.needs = base.needs := (congrArg LfuCtx.needs same :)
  simp only [zfsVisit, listedVisit, survives, needs]

/-- The object loop visits the objects of the chunk, and ends as the chunk does unless it is
stopped before.
-/
theorem zfsLoop_visits (env : Platform) {base : LfuCtx} (endId : UInt64)
    (nexts : List NextObject) {cx : LfuCtx} (same : cx.base = base.base)
    : zfsLoop env endId cx nexts
      = (let objects :=
            (splitObjects endId nexts).1.map (fun entry => zfsVisit env base entry.1 entry.2)
        let visited := visitEntries env cx objects
        (visited.1, visited.2,
          if visited.1.stop then some false else (splitObjects endId nexts).2)) := by
  induction nexts generalizing cx with
  | nil => rfl
  | cons next rest ih =>
      unfold zfsLoop
      by_cases stopped : cx.stop = true
      · simp only [stopped, if_true, visitEntries_stopped env stopped]
      rw [if_neg stopped]
      cases next with
      | failed err =>
          simp only [splitObjects, List.map_nil, visitEntries, stopped, Bool.false_eq_true,
            if_false]
      | object id obj =>
          simp only [splitObjects]
          split
          · simp only [List.map_nil, visitEntries, stopped, Bool.false_eq_true, if_false]
          · -- the rest of the chunk, with the context this object leaves
            have later := ih ((visitEntry_base env cx (zfsVisit env base id obj)).trans same)
            simp only [zfsObject_eq, zfsVisit_base env same, later, List.map_cons, visitEntries,
              stopped, Bool.false_eq_true, if_false]

theorem lfuZfsScanChunk_visits (env : Platform) (z : LfuZfs) (cx : LfuCtx) (idx : Nat)
    : lfuZfsScanChunk env z cx idx
      = (let visited := visitEntries env cx ((zfsBackend env z cx).chunk idx)
        (visited.1, visited.2, if visited.1.stop then some false else (z.chunk idx).2)) :=
  zfsLoop_visits env _ _ rfl

end LfuScan.Device
