import LfuScan.Core.Accounting
import LfuScan.Device.Inode

/-! The device scanner for ldiskfs targets: a chunk is a run of block groups, walked inode by
inode.
-/

namespace LfuScan.Device

open LfuScan.Lustre LfuScan.Filter LfuScan.Core

-----------------------------------------------------------------------------------------
-- Extended attributes
-----------------------------------------------------------------------------------------

/-- The attributes of one open handle, by name: the LMA and the four a filter can ask for. -/
structure XattrHandle where
  lma : LfuEa := none
  named : XattrName → LfuEa := fun _ => none

/-- What reading an inode's attributes gives: the pass over the inode, and the second pass
that also covers the external block. `none` is a handle that cannot be opened or read.
-/
structure InodeXattrs where
  readInode : Option XattrHandle := some {}
  read : Option XattrHandle := some {}

/-- The number of values that can be held for freeing. -/
def lfuEaBufs : Nat := 5

/-- One value fetched into `ea`, with the number of values held. -/
def lfuEaFetch (value ea : LfuEa) (bufs : Nat) : LfuEa × Nat :=
  if bufs = lfuEaBufs then
    (ea, bufs)
  else
    match value with
    | none => (ea, bufs)
    | some b => (some b, bufs + 1)

def lfuDecodeLma (value : LfuEa) (lma : LustreMdtAttrs) (haveLma : Bool)
    : LustreMdtAttrs × Bool :=
  match value with
  | none => (lma, haveLma)
  | some b =>
      if b.length < lustreMdtAttrsSize then
        (lma, haveLma)
      else
        (
          {
            lmaCompat := lfuLe32 b 0
            lmaIncompat := lfuLe32 b 4
            lmaSelfFid := { fSeq := lfuLe64 b 8, fOid := lfuLe32 b 16, fVer := lfuLe32 b 20 }
          },
          true)

def lfuEasMissing (needs : UInt32) (eas : LfuEas) : UInt32 :=
  let miss (name : XattrName) : UInt32 :=
    if needsHas needs name && (eas.get name).isNone then name.need else 0
  miss .som ||| miss .lov ||| miss .lmv ||| miss .link

def lfuEasFetchSet (h : XattrHandle) (want : UInt32) (eas : LfuEas) (bufs : Nat)
    : LfuEas × Nat :=
  let fetch (name : XattrName) (bufs : Nat) : LfuEa × Nat :=
    if needsHas want name then lfuEaFetch (h.named name) (eas.get name) bufs
    else (eas.get name, bufs)
  let (som, bufs) := fetch .som bufs
  let (lov, bufs) := fetch .lov bufs
  let (lmv, bufs) := fetch .lmv bufs
  let (link, bufs) := fetch .link bufs
  ({ eas with som, lov, lmv, link }, bufs)

/-- The LMA and whatever the filter demands; the external block is read again only for what
the first pass left missing.
-/
def lfuReadXattrs (x : InodeXattrs) (inode : Ext2InodeLarge) (needs : UInt32)
    : LustreMdtAttrs × Bool × LfuEas :=
  match x.readInode with
  | none => ({}, false, {})
  | some h =>
      let (value, bufs) := lfuEaFetch h.lma none 0
      let (lma, haveLma) := lfuDecodeLma value {} false
      let (eas, bufs) := lfuEasFetchSet h needs {} bufs
      let eas := if needs != 0 && inode.iFileAcl != 0 then { eas with external := true } else eas
      let miss := lfuEasMissing needs eas
      if (miss == 0 && haveLma) || inode.iFileAcl == 0 then
        (lma, haveLma, eas)
      else
        match x.read with
        | none => (lma, haveLma, eas)
        | some h =>
            let (again, bufs) := if haveLma then (none, bufs) else lfuEaFetch h.lma none bufs
            let (lma, haveLma) := lfuDecodeLma again lma haveLma
            (lma, haveLma, (lfuEasFetchSet h miss eas bufs).1)

/-- The fields of the super block the scan reads. -/
structure Ext2Super where
  inodeSize : Nat
  sInodesPerGroup : UInt32
  sInodesCount : UInt32
  firstInode : UInt32
  groupDescCount : Nat

/-- What one `ext2fs_get_next_inode_full` gives. -/
inductive NextInode
  | badBlock
  | failed
  | finished
  | inode (ino : UInt32) (raw : Ext2InodeLarge)

/-- An open target: its super block and allocation bitmap, whether a block group can be
reached, what the calls for the next inode give from there on, and the attributes of each
inode.
-/
structure LfuLdiskfs where
  super : Ext2Super
  inodeMap : UInt32 → Bool
  gotoBlockgroup : Nat → Bool
  nextInodes : Nat → List NextInode
  xattrs : UInt32 → InodeXattrs

/-- Enough block groups to cover about 64K inodes. -/
def groupsPerChunk (ipg : UInt32) : UInt32 :=
  let groups := if ipg != 0 then (65536 + ipg - 1) / ipg else 1
  if groups < 1 then 1 else groups

section Target

variable (t : LfuLdiskfs)

/-- The first block group of a chunk. -/
def LfuLdiskfs.firstGroup (idx : Nat) : Nat := idx * (groupsPerChunk t.super.sInodesPerGroup).toNat

/-- The last inode of a chunk, and whether that is the last one of the table. -/
def LfuLdiskfs.endIno (idx : Nat) : Nat × Bool :=
  let endIno :=
    (t.firstGroup idx + (groupsPerChunk t.super.sInodesPerGroup).toNat)
      * t.super.sInodesPerGroup.toNat
  if endIno > t.super.sInodesCount.toNat then (t.super.sInodesCount.toNat, true)
  else (endIno, false)

end Target

/-- The record with what the LMA says. -/
def withLma (rec : LfuRec) (lma : LustreMdtAttrs) (haveLma : Bool) : LfuRec :=
  {
    rec with
    lmaCompat := lma.lmaCompat
    lmaIncompat := lma.lmaIncompat
    fid := if haveLma then lma.lmaSelfFid else rec.fid
  }

/-- The body of the inode loop, for an inode of the chunk. -/
def ldiskfsInode (env : Platform) (t : LfuLdiskfs) (cx : LfuCtx) (ino : UInt32)
    (raw : Ext2InodeLarge)
    : LfuCtx × List Line :=
  let cx := bump cx { seen := 1 }
  if ino < t.super.firstInode then
    (cx, [])
  else if !t.inodeMap ino then
    (bump cx { freeIno := 1 }, [])
  else if raw.iDtime != 0 then
    (bump cx { deleted := 1 }, [])
  else if !lfuInodePlausible raw t.super.inodeSize then
    (bump cx { validateBad := 1 }, [])
  else
    let cx := bump cx { inUse := 1 }
    let tier0 := lfuExtractTier0 raw ino t.super.inodeSize
    let cx :=
      if tier0.hasExtEa then bump cx { tier2 := 1 } else cx
    let (survives, cx) := lfuPrefilter cx tier0
    if !survives then
      (cx, [])
    else
      let (lma, haveLma, eas) := lfuReadXattrs (t.xattrs ino) raw cx.needs
      lfuObject env cx (withLma tier0 lma haveLma) haveLma (some eas)

/-- The inode loop, with the `*done` it starts with: the context and lines after it, and the
return code with `*done`, or `none` while it waits for the next inode.
-/
def ldiskfsLoop (env : Platform) (t : LfuLdiskfs) (endIno : Nat) (done : Bool)
    : LfuCtx → List NextInode → LfuCtx × List Line × Option (Int × Bool)
  | cx, [] => (cx, [], if cx.stop then some (0, done) else none)
  | cx, next :: rest =>
      if cx.stop then
        (cx, [], some (0, done))
      else
        match next with
        | .badBlock =>
            ldiskfsLoop env t endIno done
              (bump cx { csumBad := 1 }) rest
        | .failed => (cx, [], some (-1, done))
        | .finished => (cx, [], some (0, true))
        | .inode ino raw =>
            if ino.toNat > endIno then
              (cx, [], some (0, done))
            else
              let first := ldiskfsInode env t cx ino raw
              let others := ldiskfsLoop env t endIno done first.1 rest
              (others.1, first.2 ++ others.2.1, others.2.2)

def lfuLdiskfsScanChunk (env : Platform) (t : LfuLdiskfs) (cx : LfuCtx) (idx : Nat)
    : LfuCtx × List Line × Option (Int × Bool) :=
  if t.firstGroup idx ≥ t.super.groupDescCount then
    (cx, [], some (0, true))
  else
    let (endIno, done) := t.endIno idx
    if !t.gotoBlockgroup (t.firstGroup idx) then
      (cx, [], some (-1, done))
    else
      ldiskfsLoop env t endIno done cx (t.nextInodes (t.firstGroup idx))

-----------------------------------------------------------------------------------------
-- The chunks as the pool sees them
-----------------------------------------------------------------------------------------

/-- The counters of the exit an inode takes before the core sees it, and the object it is
otherwise.
-/
def ldiskfsVisit (t : LfuLdiskfs) (needs : UInt32) : NextInode → Visit
  | .badBlock => { own := { csumBad := 1 } }
  | .failed | .finished => {}
  | .inode ino raw =>
      if ino < t.super.firstInode then
        { own := { seen := 1 } }
      else if !t.inodeMap ino then
        { own := { seen := 1, freeIno := 1 } }
      else if raw.iDtime != 0 then
        { own := { seen := 1, deleted := 1 } }
      else if !lfuInodePlausible raw t.super.inodeSize then
        { own := { seen := 1, validateBad := 1 } }
      else
        let tier0 := lfuExtractTier0 raw ino t.super.inodeSize
        let (lma, haveLma, eas) := lfuReadXattrs (t.xattrs ino) raw needs
        {
          own := { seen := 1, inUse := 1, tier2 := if tier0.hasExtEa then 1 else 0 }
          object := some (withLma tier0 lma haveLma, haveLma, some eas)
        }

/-- The part of the calls that belongs to a chunk, and how the chunk ends. -/
def splitChunk (endIno : Nat) (done : Bool)
    : List NextInode → List NextInode × Option (Int × Bool)
  | [] => ([], none)
  | .failed :: _ => ([], some (-1, done))
  | .finished :: _ => ([], some (0, true))
  | .badBlock :: rest =>
      let (inodes, outcome) := splitChunk endIno done rest
      (.badBlock :: inodes, outcome)
  | .inode ino raw :: rest =>
      if ino.toNat > endIno then
        ([], some (0, done))
      else
        let (inodes, outcome) := splitChunk endIno done rest
        (.inode ino raw :: inodes, outcome)

def LfuLdiskfs.chunk (t : LfuLdiskfs) (idx : Nat) : List NextInode × Option (Int × Bool) :=
  if t.firstGroup idx ≥ t.super.groupDescCount then
    ([], some (0, true))
  else if !t.gotoBlockgroup (t.firstGroup idx) then
    ([], some (-1, (t.endIno idx).2))
  else
    splitChunk (t.endIno idx).1 (t.endIno idx).2 (t.nextInodes (t.firstGroup idx))

def ldiskfsBackend (t : LfuLdiskfs) (needs : UInt32) : Backend where
  chunk idx := (t.chunk idx).1.map (ldiskfsVisit t needs)
  mayFinish idx done := (t.chunk idx).2 = some (0, done)
  mayFail idx := ∃ done, (t.chunk idx).2 = some (-1, done)

/-- Tier 0 does not look at the LMA. -/
theorem lfuPrefilter_withLma (cx : LfuCtx) (rec : LfuRec) (lma : LustreMdtAttrs)
    (haveLma : Bool)
    : lfuPrefilter cx (withLma rec lma haveLma) = lfuPrefilter cx rec := by
  have loop (preds : List LfuPred)
      : tier0Loop (withLma rec lma haveLma) cx.now preds = tier0Loop rec cx.now preds := by
    induction preds with
    | nil => rfl
    | cons p rest ih =>
        have hit : tier0Hit p (withLma rec lma haveLma) cx.now = tier0Hit p rec cx.now := rfl
        simp only [tier0Loop, hit, ih]
  unfold lfuPrefilter lfuFilterTier0
  rw [loop]

/-- An inode goes through the pipeline as its visit does. -/
theorem ldiskfsInode_eq (env : Platform) (t : LfuLdiskfs) (cx : LfuCtx) (ino : UInt32)
    (raw : Ext2InodeLarge)
    : ldiskfsInode env t cx ino raw
      = visitEntry env cx (ldiskfsVisit t cx.needs (.inode ino raw)) := by
  unfold ldiskfsInode ldiskfsVisit
  simp only [bump_bump]
  split
  · rfl
  · split
    · rfl
    · split
      · rfl
      · split
        · rfl
        · generalize lfuExtractTier0 raw ino t.super.inodeSize = tier0
          have counted
              : (if tier0.hasExtEa = true then
                  bump cx ({ seen := 1 } + { inUse := 1 } + { tier2 := 1 })
                else
                  bump cx ({ seen := 1 } + { inUse := 1 }))
                = bump cx { seen := 1, inUse := 1, tier2 := if tier0.hasExtEa then 1 else 0 } := by
            split <;> rfl
          rw [counted]
          rw [lfuPrefilter_eq (bump cx _) cx rfl]
          simp only [visitEntry_object, lfuPrefilter_withLma]
          cases (lfuPrefilter cx tier0).1 <;> rfl

/-- The inode loop visits the inodes of the chunk, and ends as the chunk does unless it is
stopped before.
-/
theorem ldiskfsLoop_visits (env : Platform) (t : LfuLdiskfs) (endIno : Nat) (done : Bool)
    (nexts : List NextInode) (cx : LfuCtx)
    : ldiskfsLoop env t endIno done cx nexts
      = (let inodes := (splitChunk endIno done nexts).1.map (ldiskfsVisit t cx.needs)
        let visited := visitEntries env cx inodes
        (visited.1, visited.2,
          if visited.1.stop then some (0, done) else (splitChunk endIno done nexts).2)) := by
  induction nexts generalizing cx with
  | nil => rfl
  | cons next rest ih =>
      unfold ldiskfsLoop
      by_cases stopped : cx.stop = true
      · simp only [stopped, if_true, visitEntries_stopped env stopped]
      rw [if_neg stopped]
      -- an entry of the chunk, then the rest with the context it leaves
      have needs (entry : Visit) : (visitEntry env cx entry).1.needs = cx.needs :=
        (congrArg LfuCtx.needs (visitEntry_base env cx entry) :)
      cases next with
      | failed | finished =>
          simp only [splitChunk, List.map_nil, visitEntries, stopped, Bool.false_eq_true, if_false]
      | badBlock =>
          have counted := ih (visitEntry env cx (ldiskfsVisit t cx.needs .badBlock)).1
          rw [needs] at counted
          simp only [splitChunk, List.map_cons, visitEntries, stopped, Bool.false_eq_true,
            if_false]
          exact counted
      | inode ino raw =>
          simp only [splitChunk]
          split
          · simp only [List.map_nil, visitEntries, stopped, Bool.false_eq_true, if_false]
          · simp only [ldiskfsInode_eq, ih, needs, List.map_cons, visitEntries, stopped,
              Bool.false_eq_true, if_false]

theorem lfuLdiskfsScanChunk_visits (env : Platform) (t : LfuLdiskfs) {cx : LfuCtx}
    (going : cx.stop = false) (idx : Nat)
    : lfuLdiskfsScanChunk env t cx idx
      = (let visited := visitEntries env cx ((ldiskfsBackend t cx.needs).chunk idx)
        (visited.1, visited.2,
          if visited.1.stop then some (0, (t.endIno idx).2) else (t.chunk idx).2)) := by
  simp only [lfuLdiskfsScanChunk, ldiskfsBackend, LfuLdiskfs.chunk]
  split
  · simp only [List.map_nil, visitEntries, going, Bool.false_eq_true, if_false]
  · split
    · simp only [List.map_nil, visitEntries, going, Bool.false_eq_true, if_false]
    · exact ldiskfsLoop_visits env t _ _ _ cx

end LfuScan.Device
