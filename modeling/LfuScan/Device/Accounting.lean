import LfuScan.Device.Zfs

/-! The books of a device scan: what its counters add up to when it is over. -/

namespace LfuScan.Device

open LfuScan.Lustre LfuScan.Filter LfuScan.Foundations LfuScan.Core

/-- `lfu_ldiskfs_ops`. -/
def lfuLdiskfsOps : LfuTargetOps := { idLabel := cstr "ino" }

/-- `lfu_zfs_ops`. -/
def lfuZfsOps : LfuTargetOps := { idLabel := cstr "obj" }

/-- A reserved inode, which is seen and nothing else. -/
def reservedInode (t : LfuLdiskfs) : NextInode → Bool
  | .inode ino _ => ino < t.super.firstInode
  | _ => false

/-- The number of reserved inodes in the first chunks of a target. -/
def LfuLdiskfs.reservedInodes (t : LfuLdiskfs) (chunks : Nat) : Nat :=
  ∑ idx ∈ Finset.range chunks, (t.chunk idx).1.countP (reservedInode t)

/-- What an inode, `reserved` times a reserved one, adds to the counters. -/
structure InodeBalance (o : LfuOpts) (reserved : UInt64) (st : LfuStats) : Prop where
  seen : Counter.seen st = reserved + Counter.inodeExits st
  used : Counter.inUse st = Counter.passed st
  shown : Counter.shown o st = Counter.settled o st

section Entries

variable (env : Platform) {base : LfuCtx} (fresh : base.base = base)
include fresh

theorem inodeExit_balance (own : LfuStats) (reserved : UInt64) (mine : own.backendOnly = own)
    (seen : own.seen = reserved + Counter.inodeExits own) (unused : own.inUse = 0)
    : InodeBalance base.o reserved (visitStats env base { own }) := by
  obtain ⟨unfiltered, unclassified, unshown, unsettled⟩ := backendOnly_clear mine base.o
  rw [visitStats_own env fresh]
  refine ⟨seen, ?_, unshown.trans unsettled.symm⟩
  change own.inUse = own.filtered + own.clsSum
  rw [unused, unfiltered, unclassified]
  rfl

theorem inodeObject_balance (notPushed : base.ops.pushdown = false) (tier2 : UInt64)
    (rec : LfuRec) (haveLma : Bool) (eas : Option LfuEas)
    : InodeBalance base.o 0
        (visitStats env base
          { own := { seen := 1, inUse := 1, tier2 }, object := some (rec, haveLma, eas) }) := by
  have object := visitStats_object env fresh notPushed { seen := 1, inUse := 1, tier2 } rfl rec
    haveLma eas
  generalize visitStats env base _ = st at object ⊢
  obtain ⟨backend, passed, settled⟩ := object
  have seen : st.seen = 1 := (congrArg LfuStats.seen backend :)
  have used : st.inUse = 1 := (congrArg LfuStats.inUse backend :)
  have free : st.freeIno = 0 := (congrArg LfuStats.freeIno backend :)
  have deleted : st.deleted = 0 := (congrArg LfuStats.deleted backend :)
  have bad : st.validateBad = 0 := (congrArg LfuStats.validateBad backend :)
  refine ⟨?_, used.trans passed.symm, settled⟩
  change st.seen = 0 + (st.freeIno + st.deleted + st.validateBad + st.inUse)
  rw [seen, used, free, deleted, bad]
  rfl

/-- The exits of one call for the next inode. -/
theorem ldiskfsVisit_balance (notPushed : base.ops.pushdown = false) (t : LfuLdiskfs)
    (next : NextInode)
    : InodeBalance base.o (if reservedInode t next then 1 else 0)
        (visitStats env base (ldiskfsVisit t base.needs next)) := by
  cases next with
  | badBlock => exact inodeExit_balance env fresh { csumBad := 1 } 0 rfl rfl rfl
  | failed => exact inodeExit_balance env fresh {} 0 rfl rfl rfl
  | finished => exact inodeExit_balance env fresh {} 0 rfl rfl rfl
  | inode ino raw =>
      simp only [ldiskfsVisit, reservedInode, decide_eq_true_eq]
      split
      · exact inodeExit_balance env fresh { seen := 1 } 1 rfl rfl rfl
      · split
        · exact inodeExit_balance env fresh { seen := 1, freeIno := 1 } 0 rfl rfl rfl
        · split
          · exact inodeExit_balance env fresh { seen := 1, deleted := 1 } 0 rfl rfl rfl
          · split
            · exact inodeExit_balance env fresh { seen := 1, validateBad := 1 } 0 rfl rfl rfl
            · exact inodeObject_balance env fresh notPushed _ _ _ _

/-- What an object adds to the counters. -/
structure ObjectBalance (o : LfuOpts) (st : LfuStats) : Prop where
  seen : Counter.seen st = Counter.objectExits st
  shown : Counter.shown o st = Counter.settled o st

theorem objectExit_balance (own : LfuStats) (mine : own.backendOnly = own)
    (seen : own.seen = own.notZnode + own.saFail)
    : ObjectBalance base.o (visitStats env base { own }) := by
  obtain ⟨unfiltered, unclassified, unshown, unsettled⟩ := backendOnly_clear mine base.o
  rw [visitStats_own env fresh]
  refine ⟨?_, unshown.trans unsettled.symm⟩
  change own.seen = own.notZnode + own.saFail + own.filtered + own.clsSum
  rw [seen, unfiltered, unclassified]
  grind

/-- The backend's counters of an object that got as far as the prefilter. -/
structure Reached (own : LfuStats) : Prop where
  mine : own.backendOnly = own
  once : own.seen = 1
  znode : own.notZnode = 0
  read : own.saFail = 0

omit fresh in
theorem passed_balance {own st : LfuStats} (reached : Reached own) {o : LfuOpts}
    (balance
      : st.backendOnly = own ∧ st.filtered + st.clsSum = 1 ∧ st.shown o = st.settled o)
    : ObjectBalance o st := by
  obtain ⟨backend, passed, settled⟩ := balance
  have seen : st.seen = own.seen := (congrArg LfuStats.seen backend :)
  have znode : st.notZnode = own.notZnode := (congrArg LfuStats.notZnode backend :)
  have fail : st.saFail = own.saFail := (congrArg LfuStats.saFail backend :)
  refine ⟨?_, settled⟩
  change st.seen = st.notZnode + st.saFail + st.filtered + st.clsSum
  rw [seen, znode, fail, reached.once, reached.znode, reached.read]
  grind

theorem listedVisit_balance (notPushed : base.ops.pushdown = false) {own : LfuStats}
    (reached : Reached own) (tier0 : LfuRec) (dxattr : Dxattr)
    : ObjectBalance base.o
        (visitStats env base (listedVisit env base own tier0 dxattr)) := by
  have object {own : LfuStats} (reached : Reached own) (rec : LfuRec) (haveLma : Bool)
      (eas : Option LfuEas) :=
    passed_balance reached
      (visitStats_object env fresh notPushed own reached.mine rec haveLma eas)
  cases dxattr with
  | absent =>
      simp only [listedVisit]
      split
      · refine object ⟨?_, ?_, ?_, ?_⟩ _ _ _
        · rw [backendOnly_add, reached.mine]
          rfl
        · exact (UInt64.add_zero own.seen).trans reached.once
        · exact (UInt64.add_zero own.notZnode).trans reached.znode
        · exact (UInt64.add_zero own.saFail).trans reached.read
      · exact object reached _ _ _
  | unreadable =>
      simp only [listedVisit]
      split
      · refine objectExit_balance env fresh _ ?_ ?_
        · rw [backendOnly_add, reached.mine]
          rfl
        · change own.seen + 0 = own.notZnode + 0 + (own.saFail + 1)
          rw [reached.once, reached.znode, reached.read]
          rfl
      · -- rejected before the list is read, so counted there
        rw [visitStats_own env fresh]
        exact passed_balance reached (rejected_balance reached.mine base.o)
  | unpacked lma named => exact object reached _ _ _

/-- The exits of one object. -/
theorem zfsVisit_balance (notPushed : base.ops.pushdown = false) (id : UInt64)
    (obj : ZfsObject)
    : ObjectBalance base.o (visitStats env base (zfsVisit env base id obj)) := by
  unfold zfsVisit
  split
  · exact objectExit_balance env fresh { seen := 1, saFail := 1 } rfl rfl
  · split
    · exact objectExit_balance env fresh { seen := 1, notZnode := 1 } rfl rfl
    · split
      · exact objectExit_balance env fresh { seen := 1, saFail := 1, maxBonus := _ } rfl rfl
      · split
        · exact listedVisit_balance env fresh notPushed ⟨rfl, rfl, rfl, rfl⟩ _ _
        · exact objectExit_balance env fresh { seen := 1, saFail := 1, maxBonus := _ } rfl rfl

end Entries

-----------------------------------------------------------------------------------------
-- The whole scan
-----------------------------------------------------------------------------------------

theorem sum_indicator {ι : Type} (test : ι → Bool) (entries : List ι)
    : (entries.map (fun entry => if test entry then (1 : UInt64) else 0)).sum
      = UInt64.ofNat (entries.countP test) := by
  induction entries with
  | nil => rfl
  | cons entry rest ih =>
      rw [List.map_cons, List.sum_cons, ih, List.countP_cons]
      cases test entry <;> simp [UInt64.ofNat_add, UInt64.add_comm]

theorem sum_reserved (t : LfuLdiskfs) (chunks : Nat)
    : ∑ idx ∈ Finset.range chunks,
        ((t.chunk idx).1.map (fun next => if reservedInode t next then (1 : UInt64) else 0)).sum
      = UInt64.ofNat (t.reservedInodes chunks) := by
  induction chunks with
  | zero => rfl
  | succ chunks ih =>
      rw [Finset.sum_range_succ, ih, sum_indicator, LfuLdiskfs.reservedInodes,
        LfuLdiskfs.reservedInodes, Finset.sum_range_succ, UInt64.ofNat_add]

/-- Whatever the target holds, the filter and the options ask, and the workers do: after a
scan that returned zero, every inode of an ldiskfs target has left by exactly one exit, and
so has every object of a ZFS target; and every object shown was emitted, rejected by tier 1,
or left undecided.
-/
theorem device_scan_accounting (env : Platform) (o : LfuOpts) (now : Int) (threads : Nat)
    (noLimit : o.limit = 0)
    : (∀ (t : LfuLdiskfs) (trace : List PoolEvent) (s : Pool),
        Run (PoolStep env (ldiskfsBackend t (lfuFilterNeeds o.filter)))
          (Pool.begin o lfuLdiskfsOps now threads) trace s →
        s.main = .returned 0 →
        s.st.inUse = s.st.filtered + s.st.clsSum
        ∧ s.st.seen
          = UInt64.ofNat (t.reservedInodes s.w.cursor)
            + (s.st.freeIno + s.st.deleted + s.st.validateBad + s.st.inUse)
        ∧ s.st.shown o = s.st.settled o)
      ∧ ∀ (z : LfuZfs) (trace : List PoolEvent) (s : Pool),
        Run (PoolStep env (zfsBackend env z (workerCtx o lfuZfsOps now)))
          (Pool.begin o lfuZfsOps now threads) trace s →
        s.main = .returned 0 →
        s.st.seen = s.st.notZnode + s.st.saFail + s.st.filtered + s.st.clsSum
        ∧ s.st.shown o = s.st.settled o := by
  constructor
  · intro t trace s run returned
    have inv := Covering.run run
    have balance (next : NextInode) :=
      ldiskfsVisit_balance env (show (workerCtx o lfuLdiskfsOps now).base = _ from rfl) rfl t next
    rw [inv.total returned (inv.unfailed_of_zero returned) (unlimited_run noLimit run)]
    refine ⟨?_, ?_, ?_⟩
    · exact chunks_balanced (fun _ => rfl) Counter.inUse Counter.passed
        (fun next => (balance next).used) s.w.cursor
    · rw [← sum_reserved]
      exact chunks_weighted (fun _ => rfl) Counter.seen Counter.inodeExits _
        (fun next => (balance next).seen) s.w.cursor
    · exact chunks_balanced (fun _ => rfl) (Counter.shown o) (Counter.settled o)
        (fun next => (balance next).shown) s.w.cursor
  · intro z trace s run returned
    have inv := Covering.run run
    have balance (entry : UInt64 × ZfsObject) :=
      zfsVisit_balance env (show (workerCtx o lfuZfsOps now).base = _ from rfl) rfl entry.1 entry.2
    rw [inv.total returned (inv.unfailed_of_zero returned) (unlimited_run noLimit run)]
    constructor
    · exact chunks_balanced (fun _ => rfl) Counter.seen Counter.objectExits
        (fun entry => (balance entry).seen) s.w.cursor
    · exact chunks_balanced (fun _ => rfl) (Counter.shown o) (Counter.settled o)
        (fun entry => (balance entry).shown) s.w.cursor

/-- A reserved inode, a free one, and the end of the table. -/
def twoInodes : LfuLdiskfs where
  super :=
    {
      inodeSize := 256
      sInodesPerGroup := 65536
      sInodesCount := 65536
      firstInode := 11
      groupDescCount := 1
    }
  inodeMap _ := false
  gotoBlockgroup _ := true
  nextInodes _ := [.inode 1 {}, .inode 12 {}, .finished]
  xattrs _ := {}

/-- An object that is not a znode, one without an attribute list, and the end of the set. -/
def twoObjects : LfuZfs where
  nextObjects _ :=
    [.object 1 { bonusIsSa := false }, .object 7 { mode := some 0o100644, links := some 1 },
      .failed 3]

theorem device_scan_accounting_small
    : (∃ trace s,
        Run (PoolStep exactNames (ldiskfsBackend twoInodes 0)) (Pool.begin {} lfuLdiskfsOps 0 1)
          trace s
        ∧ s.main = .returned 0 ∧ s.st.seen = 1 + (s.st.freeIno + s.st.deleted
            + s.st.validateBad + s.st.inUse))
      ∧ ∃ trace s,
        Run (PoolStep exactNames (zfsBackend exactNames twoObjects (workerCtx {} lfuZfsOps 0)))
          (Pool.begin {} lfuZfsOps 0 1) trace s
        ∧ s.main = .returned 0
        ∧ s.st.seen = s.st.notZnode + s.st.saFail + s.st.filtered + s.st.clsSum := by
  have accounting := device_scan_accounting exactNames {} 0 1 rfl
  obtain ⟨trace, s, run, returned, one⟩ :=
    oneChunk_run {} lfuLdiskfsOps 0 rfl
      (show (ldiskfsBackend twoInodes 0).mayFinish 0 true from rfl)
  obtain ⟨zfsTrace, zfs, zfsRun, zfsReturned, _⟩ :=
    oneChunk_run {} lfuZfsOps 0 rfl
      (show (zfsBackend exactNames twoObjects (workerCtx {} lfuZfsOps 0)).mayFinish 0 true from rfl)
  obtain ⟨_, seen, _⟩ := accounting.1 twoInodes trace s run returned
  rw [one] at seen
  exact ⟨⟨trace, s, run, returned, seen⟩, zfsTrace, zfs, zfsRun, zfsReturned,
    (accounting.2 twoObjects zfsTrace zfs zfsRun zfsReturned).1⟩

end LfuScan.Device
