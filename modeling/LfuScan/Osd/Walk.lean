import LfuScan.Osd.HeldBlock
import LfuScan.Par.Harness

/-! A whole walk of a private iterator: what the calls of `next` return, one after the other,
until one of them returns no object. The walk goes group by group and bit by bit, with a cache
underneath; seen from outside it is the ascending list of the allocated inodes, each with what
its own record is good for. That is the iterator the parallel harness counts on.
-/

namespace LfuScan.Osd

open LfuScan.Foundations LfuScan.Lustre LfuScan.Filter LfuScan.Ring LfuScan.Device

-----------------------------------------------------------------------------------------
-- The walk, as the file system sees it
-----------------------------------------------------------------------------------------

/-- `osd_iit_next` moves to the next bit that is set. -/
structure OsdIitNext.NextSetBit (iitNext : OsdIitNext) : Prop where
  found
    : ∀ bitmap size offset index, iitNext.next bitmap size offset = some index →
        bitmap index = true ∧ ∀ i, offset ≤ i → i < index → bitmap i = false
  none
    : ∀ bitmap size offset, iitNext.next bitmap size offset = none →
        ∀ i, offset ≤ i → i < size → bitmap i = false

namespace Ldiskfs

/-- The inode with this index, counted from zero over all the groups. -/
def inodeAt (index : Nat) : UInt32 := UInt32.ofNat (index + 1)

/-- The block of the inode table an inode is in. -/
def inodeBlock (fs : Ldiskfs) (ino : UInt32) : Option UInt64 :=
  let ipb := fs.sb.sBlocksize.toNat / fs.sb.inodeSize.toNat
  fs.groups[(ino.toNat - 1) / fs.perGroup]?.map fun desc =>
    fs.osdGroupItable desc + UInt64.ofNat ((ino.toNat - 1) % fs.perGroup / ipb)

/-- The inodes there are. -/
def inodes (fs : Ldiskfs) : Nat := fs.groups.length * fs.perGroup

/-- The allocated inodes from an index on, in ascending order. -/
def allocatedFrom (fs : Ldiskfs) (bitmaps : Nat → Nat → Bool) (index : Nat) : List UInt32 :=
  ((List.range' index (fs.inodes - index)).filter fun i =>
    bitmaps (i / fs.perGroup) (i % fs.perGroup)).map inodeAt

/-- The geometry agrees with the inode count, the first number past the last inode has 32
bits, and no inode table lies in block 0, which stands for no block at all.
-/
structure Regular (fs : Ldiskfs) : Prop where
  inhabited : 0 < fs.perGroup
  count : fs.sInodesCount.toNat = fs.inodes
  bounded : fs.inodes + 1 < 2 ^ 32
  tables
    : ∀ desc ∈ fs.groups, ∀ index < fs.perGroup,
        fs.osdGroupItable desc
          + UInt64.ofNat (index / (fs.sb.sBlocksize.toNat / fs.sb.inodeSize.toNat)) ≠ 0

/-- The bitmaps can be read and are searched bit by bit, and none has a bit in a part of the
table that is not in use.
-/
structure Mapped (fs : Ldiskfs) (env : OsdKernel) (bitmaps : Nat → Nat → Bool) : Prop where
  read : ∀ bg < fs.groups.length, env.ldiskfsReadInodeBitmap bg = .ok (bitmaps bg)
  search : env.osdIitNext.NextSetBit
  used
    : ∀ bg desc index, fs.groups[bg]? = some desc → bitmaps bg index = true →
        desc.inodeUninit = false ∧ index + desc.itableUnused.toNat < fs.perGroup

end Ldiskfs

section Answers

variable (fs : Ldiskfs) (env : OsdKernel)

/-- What the record of an inode is good for on the raw path. -/
def rawAnswer (ino : UInt32) : RawObject :=
  if fs.sb.sBlocksize / fs.sb.inodeSize == 0 then
    .failed (-eagain)
  else if ino == fs.rootIno || fs.isRemoteParentIno ino then
    .skip
  else if fs.sb.project && ino == fs.sb.prjQuotaInum then
    .skip
  else
    match fs.inodeBlock ino with
    | none => .failed (-eagain)
    | some blk =>
        if env.badBlock blk then .failed (-eio)
        else osdRawObject fs.sb ((fs.inodeRecord ino).getD [])

/-- What an inode is good for: an object, an error, or nothing that is returned. -/
def inodeAnswer (ino : UInt32) : Option NextResult :=
  match if env.lfuBlockparse then rawAnswer fs env ino else .failed (-eagain) with
  | .found fid la => some (.object fid la)
  | .skip => none
  | .failed rc =>
      if rc == -eagain then
        match env.osdIitIget ino with
        | .found fid la => some (.object fid la)
        | .skip _ => none
        | .failed rc _ => some (.failed rc)
      else
        some (.failed rc)

/-- An object of the walk, with the number of its inode. -/
abbrev WalkObject := UInt32 × LuFid × LuAttr

/-- The objects among these inodes up to the first error, and how the walk ends. -/
def walk : List UInt32 → List WalkObject × NextResult
  | [] => ([], .tableEnd)
  | ino :: rest =>
      match inodeAnswer fs env ino with
      | none => walk rest
      | some (.object fid la) => ((ino, fid, la) :: (walk rest).1, (walk rest).2)
      | some result => ([], result)

/-- The calls of `next` from an iterator on, up to the first that returns no object. -/
inductive Calls : OsdPrivateIt → List WalkObject → NextResult → Prop
  | last {it it' result} (returned : osdOtableItNextPrivate fs env it = some (result, it'))
    (other : ∀ fid la, result ≠ .object fid la)
    : Calls it [] result
  | object {it it' fid la objects result}
    (returned : osdOtableItNextPrivate fs env it = some (.object fid la, it'))
    (rest : Calls it' objects result)
    : Calls it ((it'.oiiIno, fid, la) :: objects) result

end Answers

section Visit

variable {fs : Ldiskfs} {env : OsdKernel}

/-- A held block has been read from the device as it is. -/
def Readable (env : OsdKernel) (it : OsdOtableIt) : Prop :=
  it.bpBh = none ∨ env.badBlock it.bpBlk = false

theorem Ldiskfs.inodeAt_toNat (regular : fs.Regular) {index : Nat} (inside : index < fs.inodes)
    : (inodeAt index).toNat = index + 1 :=
  UInt32.toNat_ofNat_of_lt' (Nat.lt_trans (Nat.succ_lt_succ inside) regular.bounded)

/-- An inode by its group and its place there. -/
theorem Ldiskfs.gbase_add (fs : Ldiskfs) (bg offset : Nat)
    : fs.gbase bg + UInt32.ofNat offset = inodeAt (bg * fs.perGroup + offset) := by
  rw [gbase, ← UInt32.ofNat_add, inodeAt]
  congr 1
  omega

theorem Ldiskfs.index_lt {bg offset : Nat} (group : bg < fs.groups.length)
    (place : offset < fs.perGroup)
    : bg * fs.perGroup + offset < fs.inodes := by
  have upto : (bg + 1) * fs.perGroup ≤ fs.inodes := Nat.mul_le_mul_right _ group
  rw [Nat.add_one_mul] at upto
  omega

/-- An inode, by its group and its place there. -/
structure InodePlace (fs : Ldiskfs) (bg offset : Nat) (desc : LdiskfsGroupDesc) (ino : UInt32)
    : Prop where
  found : fs.groups[bg]? = some desc
  below : offset < fs.perGroup
  number : ino.toNat = 1 + bg * fs.perGroup + offset

namespace InodePlace

variable {bg offset : Nat} {desc : LdiskfsGroupDesc} {ino : UInt32}

theorem group (place : InodePlace fs bg offset desc ino) : bg < fs.groups.length :=
  (List.getElem?_eq_some_iff.mp place.found).1

theorem of_index (regular : fs.Regular) (found : fs.groups[bg]? = some desc)
    (below : offset < fs.perGroup)
    : InodePlace fs bg offset desc (Ldiskfs.inodeAt (bg * fs.perGroup + offset)) := by
  have group : bg < fs.groups.length := (List.getElem?_eq_some_iff.mp found).1
  have number := Ldiskfs.inodeAt_toNat regular (Ldiskfs.index_lt group below)
  exact ⟨found, below, by omega⟩

theorem after (place : InodePlace fs bg offset desc ino) : fs.gbase bg ≤ ino := by
  have first := Ldiskfs.gbase_toNat place.group
  have number := place.number
  apply UInt32.le_iff_toNat_le.mpr
  omega

theorem index (place : InodePlace fs bg offset desc ino) : (ino - fs.gbase bg).toNat = offset := by
  have first := Ldiskfs.gbase_toNat place.group
  have number := place.number
  have sub := UInt32.toNat_sub_of_le _ _ place.after
  omega

theorem block (place : InodePlace fs bg offset desc ino)
    : fs.inodeBlock ino
      = some (fs.osdGroupItable desc
          + UInt64.ofNat (offset / (fs.sb.sBlocksize.toNat / fs.sb.inodeSize.toNat))) := by
  obtain ⟨group, within⟩ := group_of_index place.below place.number
  simp only [Ldiskfs.inodeBlock, group, within, place.found, Option.map_some]

/-- The number the raw path computes for the block. -/
theorem block_computed (place : InodePlace fs bg offset desc ino)
    : fs.inodeBlock ino
      = some (fs.osdGroupItable desc
          + ((ino - fs.gbase bg) / (fs.sb.sBlocksize / fs.sb.inodeSize)).toUInt64) := by
  rw [place.block, ← place.index, ← UInt32.toNat_div, ← UInt32.toNat_div,
    UInt64.ofNat_uInt32ToNat]

/-- The record the raw path takes from the block of the inode is the inode's own. -/
theorem record (place : InodePlace fs bg offset desc ino) {it : OsdOtableIt}
    (based : it.gbase = fs.gbase bg) (packed : fs.sb.sBlocksize / fs.sb.inodeSize ≠ 0)
    (held : fs.inodeBlock ino = some it.bpBlk) (bh : it.bpBh = some (fs.blocks it.bpBlk))
    : fs.inodeRecord ino = some (it.inodeRecord fs.sb ino) := by
  obtain ⟨group, within⟩ := group_of_index place.below place.number
  have blk := Option.some.inj (place.block.symm.trans held)
  simp only [Ldiskfs.inodeRecord, group, within, place.found, Option.map_some, blk,
    OsdOtableIt.inodeRecord, bh, Option.getD_some, based, recordOffset_toNat _ packed,
    place.index]

end InodePlace

section Held

variable {it : OsdOtableIt} {bg offset : Nat} {desc : LdiskfsGroupDesc} {ino : UInt32}

/-- Holding the block of an inode: it cannot be read, or it is the one that is held then. -/
theorem hold_block (env : OsdKernel) (regular : fs.Regular)
    (place : InodePlace fs bg offset desc ino)
    (cache : CacheValid fs it) (readable : Readable env it) {blk : UInt64}
    (block : fs.inodeBlock ino = some blk)
    : it.hold (env.device fs) blk = none ∧ env.badBlock blk = true
      ∨ ∃ held, it.hold (env.device fs) blk = some held
          ∧ env.badBlock blk = false
          ∧ held.gbase = it.gbase
          ∧ held.bpBlk = blk
          ∧ held.bpBh = some (fs.blocks blk) := by
  have member := List.mem_of_getElem? place.found
  have named : blk ≠ 0 := by
    rw [← Option.some.inj (place.block.symm.trans block)]
    exact regular.tables desc member offset place.below
  by_cases same : it.bpBlk = blk
  · have kept : it.hold (env.device fs) blk = some it := by simp [OsdOtableIt.hold, same]
    rcases cache with ⟨_, none⟩ | bh
    · exact absurd (same.symm.trans none) named
    · rcases readable with none | good
      · cases none.symm.trans bh
      · exact .inr ⟨it, kept, same ▸ good, rfl, same, same ▸ bh⟩
  · cases bad : env.badBlock blk with
    | true => exact .inl ⟨by simp [OsdOtableIt.hold, OsdKernel.device, same, bad], rfl⟩
    | false =>
        exact .inr ⟨{ it with bpBh := some (fs.blocks blk), bpBlk := blk },
          by simp [OsdOtableIt.hold, OsdKernel.device, same, bad], rfl, rfl, rfl, rfl⟩

/-- The raw path answers by the record of the inode, whatever block is held. -/
theorem osdIitIgetRaw_answer (regular : fs.Regular) (place : InodePlace fs bg offset desc ino)
    (based : it.gbase = fs.gbase bg) (table : it.itable = fs.osdGroupItable desc)
    (cache : CacheValid fs it) (readable : Readable env it)
    : (osdIitIgetRaw (env.device fs) it ino).1 = rawAnswer fs env ino
      ∧ Readable env (osdIitIgetRaw (env.device fs) it ino).2 := by
  have inGroup : (decide (ino < fs.gbase bg)
      || decide (ino - fs.gbase bg ≥ fs.sb.inodesPerGroup)) = false := by
    rw [Bool.or_eq_false_iff, decide_eq_false_iff_not, decide_eq_false_iff_not]
    refine ⟨UInt32.not_lt.mpr place.after, fun over_ => ?_⟩
    have far := UInt32.le_iff_toNat_le.mp over_
    rw [place.index] at far
    exact absurd place.below (Nat.not_lt.mpr far)
  unfold osdIitIgetRaw rawAnswer
  cases unpacked : fs.sb.sBlocksize / fs.sb.inodeSize == 0 with
  | true => simpa [OsdKernel.device, unpacked] using readable
  | false =>
  cases own : ino == fs.rootIno || fs.isRemoteParentIno ino with
  | true => simpa [OsdKernel.device, unpacked, own] using readable
  | false =>
  cases quota : fs.sb.project && ino == fs.sb.prjQuotaInum with
  | true => simpa [OsdKernel.device, unpacked, own, quota] using readable
  | false =>
      have block := place.block_computed
      have packed : fs.sb.sBlocksize / fs.sb.inodeSize ≠ 0 := by simpa using unpacked
      rcases hold_block env regular place cache readable block with
        ⟨unread, bad⟩ | ⟨held, read, good, base, named, bh⟩
      · simp only [OsdKernel.device, unpacked, own, quota, inGroup, table, based, block, bad,
          if_true, Bool.false_eq_true, if_false] at unread ⊢
        rw [unread]
        exact ⟨rfl, readable⟩
      · have record := place.record (base.trans based) packed (named ▸ block) (named ▸ bh)
        simp only [OsdKernel.device, unpacked, own, quota, inGroup, table, based, block, good,
          Bool.false_eq_true, if_false, record, Option.getD_some] at read ⊢
        rw [read]
        exact ⟨rfl, .inr (named ▸ good)⟩

end Held

/-- A visit touches the held block, the current record and the counters only. -/
theorem visitInode_frame (fs : Ldiskfs) (env : OsdKernel) (it : OsdPrivateIt)
    : ∃ held oiiIno stats,
        (visitInode fs env it).2 = { it with toOsdOtableIt := held, oiiIno, stats }
        ∧ held = (visitRaw fs env it.toOsdOtableIt (UInt32.ofNat it.posPreload)).2 := by
  unfold visitInode
  dsimp only
  generalize visitRaw fs env it.toOsdOtableIt (UInt32.ofNat it.posPreload) = path
  obtain ⟨object, held⟩ := path
  cases object with
  | found fid la => exact ⟨_, _, _, rfl, rfl⟩
  | skip => exact ⟨_, _, _, rfl, rfl⟩
  | failed rc =>
      simp only
      split
      · unfold visitIget
        cases env.osdIitIget (UInt32.ofNat it.posPreload) with
        | found fid la => exact ⟨_, _, _, rfl, rfl⟩
        | skip lid => cases lid <;> exact ⟨_, _, _, rfl, rfl⟩
        | failed rc lid => cases lid <;> exact ⟨_, _, _, rfl, rfl⟩
      · exact ⟨_, _, _, rfl, rfl⟩

/-- What a visit returns, by what the raw path has made of the inode. -/
theorem visitInode_answer {it : OsdPrivateIt} {ino : UInt32}
    (at_ : UInt32.ofNat it.posPreload = ino)
    (raw : (visitRaw fs env it.toOsdOtableIt ino).1
      = if env.lfuBlockparse then rawAnswer fs env ino else .failed (-eagain))
    : (visitInode fs env it).1 = inodeAnswer fs env ino := by
  unfold visitInode inodeAnswer
  rw [at_, ← raw]
  dsimp only
  generalize visitRaw fs env it.toOsdOtableIt ino = path
  obtain ⟨object, held⟩ := path
  cases object with
  | found fid la => rfl
  | skip => rfl
  | failed rc =>
      simp only
      split
      · unfold visitIget
        cases env.osdIitIget ino <;> rfl
      · rfl

end Visit

section Allocated

variable {fs : Ldiskfs} {bitmaps : Nat → Nat → Bool}

/-- A stretch without an allocated inode can be left out. -/
theorem Ldiskfs.allocatedFrom_skip {from_ upto : Nat} (order : from_ ≤ upto)
    (within : upto ≤ fs.inodes)
    (free
      : ∀ i, from_ ≤ i → i < upto → bitmaps (i / fs.perGroup) (i % fs.perGroup) = false)
    : fs.allocatedFrom bitmaps from_ = fs.allocatedFrom bitmaps upto := by
  have cut : List.range' from_ (fs.inodes - from_)
      = List.range' from_ (upto - from_) ++ List.range' upto (fs.inodes - upto) := by
    have joined := @List.range'_append from_ (upto - from_) (fs.inodes - upto) 1
    rw [show from_ + 1 * (upto - from_) = upto by omega] at joined
    rw [joined]
    congr 1
    omega
  have nothing : (List.range' from_ (upto - from_)).filter
      (fun i => bitmaps (i / fs.perGroup) (i % fs.perGroup)) = [] := by
    apply List.filter_eq_nil_iff.mpr
    intro i member
    rw [List.mem_range'_1] at member
    rw [free i member.1 (by omega)]
    exact Bool.false_ne_true
  unfold allocatedFrom
  rw [cut, List.filter_append, nothing, List.nil_append]

theorem Ldiskfs.allocatedFrom_cons {index : Nat} (within : index < fs.inodes)
    (allocated : bitmaps (index / fs.perGroup) (index % fs.perGroup) = true)
    : fs.allocatedFrom bitmaps index
      = inodeAt index :: fs.allocatedFrom bitmaps (index + 1) := by
  have count : fs.inodes - index = fs.inodes - (index + 1) + 1 := by omega
  unfold allocatedFrom
  rw [count, List.range'_succ, List.filter_cons, if_pos allocated, List.map_cons]

theorem Ldiskfs.allocatedFrom_past {index : Nat} (past : fs.inodes ≤ index)
    : fs.allocatedFrom bitmaps index = [] := by
  unfold allocatedFrom
  rw [Nat.sub_eq_zero_of_le past]
  rfl

/-- Where an index lies, in a group there is. -/
theorem Ldiskfs.div_mod_index (bg : Nat) {offset : Nat} (below : offset < fs.perGroup)
    : (bg * fs.perGroup + offset) / fs.perGroup = bg
      ∧ (bg * fs.perGroup + offset) % fs.perGroup = offset := by
  have place := group_of_index below (rfl : 1 + bg * fs.perGroup + offset = _)
  rwa [show 1 + bg * fs.perGroup + offset - 1 = bg * fs.perGroup + offset by omega] at place

/-- A stretch of a group without an allocated inode can be left out. -/
theorem Ldiskfs.allocatedFrom_free {bg offset upto : Nat} (group : bg < fs.groups.length)
    (order : offset ≤ upto) (within : upto ≤ fs.perGroup)
    (free : ∀ i, offset ≤ i → i < upto → bitmaps bg i = false)
    : fs.allocatedFrom bitmaps (bg * fs.perGroup + offset)
      = fs.allocatedFrom bitmaps (bg * fs.perGroup + upto) := by
  have next : (bg + 1) * fs.perGroup = bg * fs.perGroup + fs.perGroup := Nat.add_one_mul _ _
  have last : (bg + 1) * fs.perGroup ≤ fs.inodes := Nat.mul_le_mul_right _ group
  apply allocatedFrom_skip
  · omega
  · omega
  · intro i after before
    have same : i = bg * fs.perGroup + (i - bg * fs.perGroup) := by omega
    have place : i - bg * fs.perGroup < fs.perGroup := by omega
    obtain ⟨groupOf, placeOf⟩ := div_mod_index bg place
    rw [same, groupOf, placeOf]
    exact free _ (by omega) (by omega)

/-- The next bit of a group is the next allocated inode. -/
theorem Ldiskfs.allocatedFrom_found {iitNext : OsdIitNext} (search : iitNext.NextSetBit)
    {bg offset found : Nat} (group : bg < fs.groups.length)
    (first : iitNext.next (bitmaps bg) fs.perGroup offset = some found)
    : fs.allocatedFrom bitmaps (bg * fs.perGroup + offset)
      = inodeAt (bg * fs.perGroup + found)
        :: fs.allocatedFrom bitmaps (bg * fs.perGroup + (found + 1)) := by
  obtain ⟨after, below⟩ := iitNext.inside _ _ _ _ first
  obtain ⟨here, free⟩ := search.found _ _ _ _ first
  obtain ⟨groupOf, placeOf⟩ := div_mod_index bg below
  rw [allocatedFrom_free group after (Nat.le_of_lt below) free]
  exact allocatedFrom_cons (Ldiskfs.index_lt group below) (by rwa [groupOf, placeOf])

end Allocated

-----------------------------------------------------------------------------------------
-- Rounds
-----------------------------------------------------------------------------------------

/-- The index the search goes on at. -/
def OsdPrivateIt.index (fs : Ldiskfs) (it : OsdPrivateIt) : Nat :=
  it.bg * fs.perGroup + it.offset.toNat

/-- What holds of an iterator between the rounds of a walk. -/
structure Walking (fs : Ldiskfs) (env : OsdKernel) (bitmaps : Nat → Nat → Bool)
    (it : OsdPrivateIt)
    : Prop where
  valid : it.Valid fs
  readable : Readable env it.toOsdOtableIt
  place : it.offset.toNat ≤ fs.perGroup
  bitmap : ∀ bitmap, it.bitmap = some bitmap → bitmap = bitmaps it.bg
  position
    : it.bg < fs.groups.length ∧ it.posPreload ≤ fs.inodes
      ∨ fs.inodes ≤ it.index fs ∧ fs.inodes < it.posPreload

/-- One round: it only moves on, or it takes the next inode of those that are left. -/
inductive RoundTaken (fs : Ldiskfs) (env : OsdKernel) (bitmaps : Nat → Nat → Bool)
    (it : OsdPrivateIt)
    : Option NextResult × OsdPrivateIt → Prop
  | moved {it'} (walking : Walking fs env bitmaps it')
    (same : fs.allocatedFrom bitmaps (it.index fs) = fs.allocatedFrom bitmaps (it'.index fs))
    : RoundTaken fs env bitmaps it (none, it')
  | taken {it' result ino} (walking : Walking fs env bitmaps it')
    (next
      : fs.allocatedFrom bitmaps (it.index fs) = ino :: fs.allocatedFrom bitmaps (it'.index fs))
    (answer : inodeAnswer fs env ino = result)
    (current : ∀ fid la, result = some (.object fid la) → it'.oiiIno = ino)
    : RoundTaken fs env bitmaps it (result, it')

section Rounds

variable {fs : Ldiskfs} {env : OsdKernel} {bitmaps : Nat → Nat → Bool} {it : OsdPrivateIt}

theorem Walking.nextGroup (regular : fs.Regular) (walking : Walking fs env bitmaps it)
    (group : it.bg < fs.groups.length)
    : Walking fs env bitmaps (it.nextGroup fs)
      ∧ (it.nextGroup fs).index fs = (it.bg + 1) * fs.perGroup := by
  have bg : (it.nextGroup fs).bg = it.bg + 1 := by simp [OsdPrivateIt.nextGroup, release_bg]
  have released : (it.nextGroup fs).bpBh = none := walking.valid.release.2
  have unmapped : (it.nextGroup fs).bitmap = none := by
    simp only [OsdPrivateIt.nextGroup, OsdPrivateIt.release]
    split <;> rfl
  have pos : (it.nextGroup fs).posPreload = (fs.gbase (it.bg + 1)).toNat := by
    simp [OsdPrivateIt.nextGroup, release_bg]
  refine ⟨⟨walking.valid.nextGroup, .inl released, Nat.zero_le _, ?_, ?_⟩, ?_⟩
  · intro bitmap held
    cases unmapped.symm.trans held
  · rw [bg, pos]
    rcases Nat.lt_or_ge (it.bg + 1) fs.groups.length with more | last
    · have upto := Ldiskfs.index_lt more regular.inhabited
      rw [Ldiskfs.gbase_toNat more]
      exact .inl ⟨more, by omega⟩
    · have ends : it.bg + 1 = fs.groups.length := by omega
      have first : (fs.gbase (it.bg + 1)).toNat = 1 + (it.bg + 1) * fs.perGroup := by
        apply UInt32.toNat_ofNat_of_lt'
        have bounded := regular.bounded
        rw [Ldiskfs.inodes, ← ends] at bounded
        simpa [Nat.add_comm] using bounded
      have index : (it.nextGroup fs).index fs = (it.bg + 1) * fs.perGroup := by
        rw [OsdPrivateIt.index, bg]
        rfl
      rw [first, index, Ldiskfs.inodes, ← ends]
      exact .inr ⟨Nat.le_refl _, by omega⟩
  · rw [OsdPrivateIt.index, bg]
    rfl

/-- Nothing is allocated in the rest of the group. -/
theorem Walking.leave (regular : fs.Regular) (walking : Walking fs env bitmaps it)
    (group : it.bg < fs.groups.length)
    (free : ∀ i, it.offset.toNat ≤ i → i < fs.perGroup → bitmaps it.bg i = false)
    : RoundTaken fs env bitmaps it (none, it.nextGroup fs) := by
  obtain ⟨after, index⟩ := walking.nextGroup regular group
  refine .moved after ?_
  rw [index, OsdPrivateIt.index, Nat.add_one_mul]
  exact Ldiskfs.allocatedFrom_free group walking.place (Nat.le_refl _) free

/-- The inode at the next bit is visited. -/
theorem Walking.visit (regular : fs.Regular) (search : env.osdIitNext.NextSetBit)
    (walking : Walking fs env bitmaps it) {desc : LdiskfsGroupDesc}
    (found : fs.groups[it.bg]? = some desc) (table : it.itable = fs.osdGroupItable desc)
    {offset : Nat}
    (first : env.osdIitNext.next (bitmaps it.bg) fs.perGroup it.offset.toNat = some offset)
    : RoundTaken fs env bitmaps it (visitInode fs env (it.moveTo fs env offset)) := by
  have group : it.bg < fs.groups.length := (List.getElem?_eq_some_iff.mp found).1
  obtain ⟨_, below⟩ := env.osdIitNext.inside _ _ _ _ first
  have place := InodePlace.of_index regular found below
  have next := Ldiskfs.allocatedFrom_found search group first
  have at_ : UInt32.ofNat (it.moveTo fs env offset).posPreload
      = Ldiskfs.inodeAt (it.bg * fs.perGroup + offset) := by
    simp only [OsdPrivateIt.moveTo, walking.valid.based, Ldiskfs.gbase_add]
    exact UInt32.ofNat_toNat
  have moved : (it.moveTo fs env offset).Valid fs := ⟨walking.valid.cache, walking.valid.based⟩
  have raw : (visitRaw fs env (it.moveTo fs env offset).toOsdOtableIt
        (Ldiskfs.inodeAt (it.bg * fs.perGroup + offset))).1
        = (if env.lfuBlockparse then
            rawAnswer fs env (Ldiskfs.inodeAt (it.bg * fs.perGroup + offset))
          else .failed (-eagain))
      ∧ Readable env (visitRaw fs env (it.moveTo fs env offset).toOsdOtableIt
          (Ldiskfs.inodeAt (it.bg * fs.perGroup + offset))).2 := by
    unfold visitRaw
    cases env.lfuBlockparse with
    | true =>
        exact osdIitIgetRaw_answer regular place moved.based table moved.cache walking.readable
    | false => exact ⟨rfl, walking.readable⟩
  have answer := visitInode_answer at_ raw.1
  obtain ⟨valid, _, _, current⟩ := visitInode_visited env moved
  obtain ⟨held, oiiIno, stats, frame, heldEq⟩ := visitInode_frame fs env
    (it.moveTo fs env offset)
  rw [at_] at heldEq
  generalize visitInode fs env (it.moveTo fs env offset) = out at *
  obtain ⟨result, it'⟩ := out
  cases frame
  have offset_toNat : (UInt32.ofNat (offset + 1)).toNat = offset + 1 :=
    UInt32.toNat_ofNat_of_lt' (Nat.lt_of_le_of_lt below fs.sb.inodesPerGroup.toNat_lt)
  have posPreload : (it.moveTo fs env offset).posPreload = it.bg * fs.perGroup + offset + 1 := by
    simp only [OsdPrivateIt.moveTo, walking.valid.based, Ldiskfs.gbase_add]
    exact Ldiskfs.inodeAt_toNat regular (Ldiskfs.index_lt group below)
  refine .taken ?_ ?_ answer.symm ?_
  · refine ⟨valid, heldEq ▸ raw.2, ?_, walking.bitmap, .inl ⟨group, ?_⟩⟩
    · exact offset_toNat ▸ below
    · have upto := Ldiskfs.index_lt group below
      exact posPreload ▸ upto
  · rw [OsdPrivateIt.index, next]
    simp only [OsdPrivateIt.index, OsdPrivateIt.moveTo, offset_toNat]
  · intro fid la object
    exact (current fid la object).trans at_

theorem Walking.search (regular : fs.Regular) (search : env.osdIitNext.NextSetBit)
    (walking : Walking fs env bitmaps it) {desc : LdiskfsGroupDesc}
    (found : fs.groups[it.bg]? = some desc)
    (table : it.itable = fs.osdGroupItable desc) (held : it.bitmap = some (bitmaps it.bg))
    : RoundTaken fs env bitmaps it (searchGroup fs env it) := by
  have group : it.bg < fs.groups.length := (List.getElem?_eq_some_iff.mp found).1
  unfold searchGroup
  simp only [held, Option.bind_some]
  cases next : env.osdIitNext.next (bitmaps it.bg) fs.perGroup it.offset.toNat with
  | none =>
      exact walking.leave regular group fun i after before =>
        search.none _ _ _ next i after before
  | some offset => exact walking.visit regular search found table next

/-- The step lemma: one round of the loop. -/
theorem Walking.round (regular : fs.Regular) (mapped : fs.Mapped env bitmaps)
    (walking : Walking fs env bitmaps it) (group : it.bg < fs.groups.length)
    : RoundTaken fs env bitmaps it (privateRound fs env it) := by
  have found : fs.groups[it.bg]? = some fs.groups[it.bg] := List.getElem?_eq_getElem group
  unfold privateRound
  simp only [found]
  split
  · -- the rest of the table is not in use, so it holds no allocated inode
    rename_i unused
    refine walking.leave regular group fun i after _ => ?_
    cases bit : bitmaps it.bg i with
    | false => rfl
    | true =>
        obtain ⟨inited, used⟩ := mapped.used it.bg _ i found bit
        simp only [inited, Bool.false_or, decide_eq_true_eq, ge_iff_le,
          UInt32.le_iff_toNat_le, UInt32.toNat_add] at unused
        have wrapped := Nat.mod_le (it.offset.toNat + fs.groups[it.bg].itableUnused.toNat) (2 ^ 32)
        have unused : fs.perGroup ≤ _ := unused
        omega
  · have bitmap : it.groupBitmap env = .ok (bitmaps it.bg) := by
      unfold OsdPrivateIt.groupBitmap
      cases held : it.bitmap with
      | none => exact mapped.read it.bg group
      | some bitmap => exact congrArg Except.ok (walking.bitmap bitmap held)
    simp only [bitmap]
    have opened : Walking fs env bitmaps
        {
          it with
          bitmap := some (bitmaps it.bg)
          itable := fs.osdGroupItable fs.groups[it.bg]
        } :=
      ⟨⟨walking.valid.cache, walking.valid.based⟩, walking.readable, walking.place,
        fun _ held => (Option.some.inj held).symm, walking.position⟩
    have step := opened.search regular mapped.search found rfl rfl
    generalize searchGroup fs env _ = out at step ⊢
    cases step with
    | moved walking same => exact .moved walking same
    | taken walking next answer current => exact .taken walking next answer current

end Rounds

section Walks

variable {fs : Ldiskfs} {env : OsdKernel} {bitmaps : Nat → Nat → Bool}

/-- What a call returns of the inodes that are left: it passes by those that are good for
nothing, up to the first that is good for something.
-/
inductive Answered (fs : Ldiskfs) (env : OsdKernel) (bitmaps : Nat → Nat → Bool)
    : List UInt32 → NextResult × OsdPrivateIt → Prop
  | tableEnd {it'} : Answered fs env bitmaps [] (.tableEnd, it')
  | pass {ino rest out} (nothing : inodeAnswer fs env ino = none)
    (later : Answered fs env bitmaps rest out)
    : Answered fs env bitmaps (ino :: rest) out
  | object {ino fid la it'} (answer : inodeAnswer fs env ino = some (.object fid la))
    (walking : Walking fs env bitmaps it') (current : it'.oiiIno = ino)
    : Answered fs env bitmaps (ino :: fs.allocatedFrom bitmaps (it'.index fs))
        (.object fid la, it')
  | failed {ino rest result it'} (answer : inodeAnswer fs env ino = some result)
    (other : ∀ fid la, result ≠ .object fid la)
    : Answered fs env bitmaps (ino :: rest) (result, it')

/-- The run lemma: enough rounds end in the answer of the first inode that has one. -/
theorem nextPrivateLoop_answered (regular : fs.Regular) (mapped : fs.Mapped env bitmaps)
    {it : OsdPrivateIt} (walking : Walking fs env bitmaps it) {rounds : Nat}
    (enough : roundsLeft fs it < rounds)
    : ∃ out, nextPrivateLoop fs env rounds it = some out
        ∧ Answered fs env bitmaps (fs.allocatedFrom bitmaps (it.index fs)) out := by
  induction rounds generalizing it with
  | zero => omega
  | succ rounds ih =>
      unfold nextPrivateLoop
      rcases walking.position with ⟨group, upto⟩ | ⟨ended, past⟩
      · rw [if_neg (by rw [regular.count]; omega)]
        have shrinks := (privateRound_done env walking.valid).shrinks
        have step := walking.round regular mapped group
        generalize privateRound fs env it = out at *
        obtain ⟨result, it'⟩ := out
        cases step with
        | moved after same =>
            have fewer : roundsLeft fs it' < roundsLeft fs it := shrinks rfl
            rw [same]
            exact ih after (by omega)
        | taken after next answer current =>
            rw [next]
            cases result with
            | none =>
                have fewer : roundsLeft fs it' < roundsLeft fs it := shrinks rfl
                obtain ⟨out, returned, later⟩ := ih after (by omega)
                exact ⟨out, returned, .pass answer later⟩
            | some result =>
                cases result with
                | object fid la => exact ⟨_, rfl, .object answer after (current fid la rfl)⟩
                | tableEnd => exact ⟨_, rfl, .failed answer (fun _ _ same => by cases same)⟩
                | failed rc => exact ⟨_, rfl, .failed answer (fun _ _ same => by cases same)⟩
      · rw [if_pos (by rw [regular.count]; omega), Ldiskfs.allocatedFrom_past ended]
        exact ⟨_, rfl, .tableEnd⟩

theorem Walking.next (regular : fs.Regular) (mapped : fs.Mapped env bitmaps)
    {it : OsdPrivateIt} (walking : Walking fs env bitmaps it)
    : ∃ out, osdOtableItNextPrivate fs env it = some out
        ∧ Answered fs env bitmaps (fs.allocatedFrom bitmaps (it.index fs)) out :=
  nextPrivateLoop_answered regular mapped walking (Nat.lt_succ_self _)

/-- An answered call is the first step of the walk over the inodes that are left. -/
theorem Answered.walk_cases {inos : List UInt32} {out : NextResult × OsdPrivateIt}
    (answered : Answered fs env bitmaps inos out)
    : (∃ fid la, out.1 = .object fid la
        ∧ Walking fs env bitmaps out.2
        ∧ (fs.allocatedFrom bitmaps (out.2.index fs)).length < inos.length
        ∧ walk fs env inos
          = ((out.2.oiiIno, fid, la)
              :: (walk fs env (fs.allocatedFrom bitmaps (out.2.index fs))).1,
            (walk fs env (fs.allocatedFrom bitmaps (out.2.index fs))).2))
      ∨ (∀ fid la, out.1 ≠ .object fid la) ∧ walk fs env inos = ([], out.1) := by
  induction answered with
  | tableEnd => exact .inr ⟨fun _ _ same => (by cases same), rfl⟩
  | pass nothing later ih =>
      simp only [walk, nothing]
      rcases ih with ⟨fid, la, object, walking, fewer, rest⟩ | ended
      · exact .inl ⟨fid, la, object, walking, Nat.lt_succ_of_lt fewer, rest⟩
      · exact .inr ended
  | @object ino fid la it' answer walking current =>
      refine .inl ⟨fid, la, rfl, walking, Nat.lt_succ_self _, ?_⟩
      simp only [walk, answer, current]
  | @failed ino rest result it' answer other =>
      refine .inr ⟨other, ?_⟩
      cases result with
      | object fid la => exact absurd rfl (other fid la)
      | tableEnd => simp only [walk, answer]
      | failed rc => simp only [walk, answer]

/-- The calls of a walking iterator are the walk over the inodes that are left. -/
theorem Walking.calls (regular : fs.Regular) (mapped : fs.Mapped env bitmaps)
    {it : OsdPrivateIt} (walking : Walking fs env bitmaps it)
    : Calls fs env it (walk fs env (fs.allocatedFrom bitmaps (it.index fs))).1
        (walk fs env (fs.allocatedFrom bitmaps (it.index fs))).2 := by
  -- every object returned leaves fewer inodes to go
  generalize size : (fs.allocatedFrom bitmaps (it.index fs)).length = n
  induction n using Nat.strongRecOn generalizing it with
  | ind n ih =>
      obtain ⟨⟨result, it'⟩, returned, answered⟩ := walking.next regular mapped
      rcases answered.walk_cases with ⟨fid, la, object, after, fewer, rest⟩ | ⟨other, ended⟩
      · cases object
        rw [rest]
        exact .object returned (ih _ (size ▸ fewer) after rfl)
      · rw [ended]
        exact .last returned other

/-- The calls of an iterator come to one thing only. -/
theorem Calls.unique {it : OsdPrivateIt} {objects objects' : List WalkObject}
    {result result' : NextResult} (calls : Calls fs env it objects result)
    (calls' : Calls fs env it objects' result')
    : objects = objects' ∧ result = result' := by
  induction calls generalizing objects' with
  | last returned other =>
      cases calls' with
      | last returned' _ =>
          cases returned.symm.trans returned'
          exact ⟨rfl, rfl⟩
      | object returned' _ =>
          cases returned.symm.trans returned'
          exact absurd rfl (other _ _)
  | object returned _ ih =>
      cases calls' with
      | last returned' other =>
          cases returned.symm.trans returned'
          exact absurd rfl (other _ _)
      | object returned' rest =>
          cases returned.symm.trans returned'
          obtain ⟨rfl, rfl⟩ := ih rest
          exact ⟨rfl, rfl⟩

end Walks

/-- An iterator as `load` leaves it: it is to go on behind the first `start` inodes, and it
holds neither a bitmap nor a block.
-/
structure OsdPrivateIt.Positioned (fs : Ldiskfs) (it : OsdPrivateIt) (start : Nat) : Prop where
  fresh : it.Fresh fs
  unmapped : it.bitmap = none
  place : it.offset.toNat < fs.perGroup
  index : it.index fs = start
  position : it.posPreload = start + 1

section Exact

variable {fs : Ldiskfs} {env : OsdKernel} {bitmaps : Nat → Nat → Bool}

theorem OsdPrivateIt.Positioned.walking {it : OsdPrivateIt} {start : Nat}
    (positioned : it.Positioned fs start) (env : OsdKernel) (bitmaps : Nat → Nat → Bool)
    : Walking fs env bitmaps it where
  valid := ⟨.inl ⟨positioned.fresh.noBuffer, positioned.fresh.noBlock⟩, positioned.fresh.based⟩
  readable := .inl positioned.fresh.noBuffer
  place := Nat.le_of_lt positioned.place
  bitmap := fun _ held => by cases positioned.unmapped.symm.trans held
  position := by
    have index := positioned.index
    rw [positioned.position, index]
    rcases Nat.lt_or_ge start fs.inodes with inside | past
    · refine .inl ⟨?_, inside⟩
      apply Nat.lt_of_mul_lt_mul_right (a := fs.perGroup)
      unfold OsdPrivateIt.index at index
      unfold Ldiskfs.inodes at inside
      omega
    · exact .inr ⟨past, by omega⟩

/-- The calls of a loaded iterator return the objects of the allocated inodes behind its
position, in ascending order and each once, and end with the table or with the first error an
inode is good for.
-/
theorem private_walk_exact (regular : fs.Regular) (mapped : fs.Mapped env bitmaps)
    {it : OsdPrivateIt} {start : Nat} (positioned : it.Positioned fs start)
    (objects : List WalkObject) (result : NextResult)
    : Calls fs env it objects result
      ↔ (objects, result) = walk fs env (fs.allocatedFrom bitmaps start) := by
  have calls := (positioned.walking env bitmaps).calls regular mapped
  rw [positioned.index] at calls
  constructor
  · intro called
    obtain ⟨same, ends⟩ := called.unique calls
    rw [same, ends]
  · intro same
    obtain ⟨rfl, rfl⟩ := Prod.ext_iff.mp same
    exact calls

end Exact

def sampleBitmaps : Nat → Nat → Bool := fun _ index => index == 0

theorem sampleFs_regular : sampleFs.Regular where
  inhabited := by decide
  count := rfl
  bounded := by decide
  tables desc member index below := by
    cases List.mem_singleton.mp member
    have first : index / (1024 / 256) = 0 := Nat.div_eq_of_lt below
    change _ + UInt64.ofNat (index / (1024 / 256)) ≠ 0
    rw [first]
    decide

theorem firstSetBit_next : sampleKernel.osdIitNext.NextSetBit where
  found bitmap size offset index first := by
    obtain ⟨here, _, before⟩ := List.find?_range'_eq_some.mp first
    exact ⟨here, fun i after upto => by simpa using before i after upto⟩
  none bitmap size offset first i after below := by
    simpa using List.find?_range'_eq_none.mp first i after (by omega)

theorem sampleFs_mapped : sampleFs.Mapped sampleKernel sampleBitmaps where
  read _ _ := rfl
  search := firstSetBit_next
  used bg desc index found bit := by
    cases List.mem_singleton.mp (List.mem_of_getElem? found)
    cases beq_iff_eq.mp bit
    exact ⟨rfl, by decide⟩

theorem sampleStart_positioned : sampleStart.Positioned sampleFs 0 :=
  ⟨⟨rfl, rfl, rfl⟩, rfl, by decide, rfl, rfl⟩

/-- The one object of the sample, and the end of the table behind it. -/
theorem private_walk_exact_sample
    : ∃ object, Calls sampleFs sampleKernel sampleStart [object] .tableEnd :=
  ⟨_, (private_walk_exact sampleFs_regular sampleFs_mapped sampleStart_positioned _ _).mpr rfl⟩

-----------------------------------------------------------------------------------------
-- The iterator of the parallel harness
-----------------------------------------------------------------------------------------

/-- An object of the walk as an entry of the table the harness counts. -/
def tableObject (object : WalkObject) : Par.Object :=
  (object.1.toUInt64, { dorFid := object.2.1, dorAttr := object.2.2 })

/-- The objects behind the first `start` inodes, as the harness sees them. -/
def tableObjects (fs : Ldiskfs) (env : OsdKernel) (bitmaps : Nat → Nat → Bool) (start : Nat)
    : List Par.Object :=
  (walk fs env (fs.allocatedFrom bitmaps start)).1.map tableObject

section Table

variable {fs : Ldiskfs} {env : OsdKernel} {bitmaps : Nat → Nat → Bool}

theorem Ldiskfs.mem_allocatedFrom (regular : fs.Regular) {index : Nat} {ino : UInt32}
    (member : ino ∈ fs.allocatedFrom bitmaps index)
    : index < ino.toNat := by
  obtain ⟨i, listed, rfl⟩ := List.mem_map.mp member
  have range := List.mem_range'_1.mp (List.mem_filter.mp listed).1
  rw [inodeAt_toNat regular (by omega)]
  omega

theorem Ldiskfs.allocatedFrom_sorted (regular : fs.Regular) (bitmaps : Nat → Nat → Bool)
    (index : Nat)
    : (fs.allocatedFrom bitmaps index).Pairwise (· < ·) := by
  unfold allocatedFrom
  apply List.pairwise_map.mpr
  refine List.Pairwise.imp_of_mem ?_ ((List.pairwise_lt_range' 1).filter _)
  intro i j left right order
  have iRange := List.mem_range'_1.mp (List.mem_filter.mp left).1
  have jRange := List.mem_range'_1.mp (List.mem_filter.mp right).1
  apply UInt32.lt_iff_toNat_lt.mpr
  rw [inodeAt_toNat regular (by omega), inodeAt_toNat regular (by omega)]
  omega

/-- The walk returns some of the inodes, in their order. -/
theorem walk_sublist (fs : Ldiskfs) (env : OsdKernel) (inos : List UInt32)
    : ((walk fs env inos).1.map Prod.fst).Sublist inos := by
  induction inos with
  | nil => exact List.Sublist.refl _
  | cons ino rest ih =>
      unfold walk
      split
      · exact ih.cons _
      · exact ih.cons_cons _
      · exact List.nil_sublist _

theorem tableObjects_above (regular : fs.Regular) {start : Nat} {object : Par.Object}
    (member : object ∈ tableObjects fs env bitmaps start)
    : start < object.1.toNat := by
  obtain ⟨walked, listed, rfl⟩ := List.mem_map.mp member
  have ino := (walk_sublist fs env _).subset (List.mem_map_of_mem listed)
  exact Ldiskfs.mem_allocatedFrom regular ino

theorem tableObjects_sorted (regular : fs.Regular) (start : Nat)
    : (tableObjects fs env bitmaps start).Pairwise (fun left right => left.1 < right.1) := by
  have inos := (Ldiskfs.allocatedFrom_sorted regular bitmaps start).sublist
    (walk_sublist fs env _)
  apply List.pairwise_map.mpr
  refine (List.pairwise_map.mp inos).imp fun order => ?_
  exact UInt64.lt_iff_toNat_lt.mpr (UInt32.lt_iff_toNat_lt.mp order)

/-- No inode of the walk is good for an error. -/
def Unfailing (fs : Ldiskfs) (env : OsdKernel) (bitmaps : Nat → Nat → Bool) : Prop :=
  ∀ ino ∈ fs.allocatedFrom bitmaps 0, ∀ rc, inodeAnswer fs env ino ≠ some (.failed rc)

theorem inodeAnswer_not_tableEnd (ino : UInt32) : inodeAnswer fs env ino ≠ some .tableEnd := by
  unfold inodeAnswer
  intro ended
  repeat' split at ended
  all_goals cases ended

/-- An inode index there is: allocated, or passed over by the list. -/
theorem Ldiskfs.allocatedFrom_step (bitmaps : Nat → Nat → Bool) {index : Nat}
    (inside : index < fs.inodes)
    : fs.allocatedFrom bitmaps index
        = inodeAt index :: fs.allocatedFrom bitmaps (index + 1)
      ∨ fs.allocatedFrom bitmaps index = fs.allocatedFrom bitmaps (index + 1) := by
  cases bit : bitmaps (index / fs.perGroup) (index % fs.perGroup) with
  | true => exact .inl (allocatedFrom_cons inside bit)
  | false =>
      refine .inr (allocatedFrom_skip (Nat.le_succ _) inside fun i after before => ?_)
      rwa [show i = index by omega]

theorem Ldiskfs.allocatedFrom_subset (start : Nat)
    : fs.allocatedFrom bitmaps start ⊆ fs.allocatedFrom bitmaps 0 := by
  intro ino member
  obtain ⟨i, listed, rfl⟩ := List.mem_map.mp member
  obtain ⟨range, bit⟩ := List.mem_filter.mp listed
  have inside := List.mem_range'_1.mp range
  apply List.mem_map_of_mem
  exact List.mem_filter.mpr ⟨List.mem_range'_1.mpr (by omega), bit⟩

theorem walk_tableEnd {inos : List UInt32}
    (sound : ∀ ino ∈ inos, ∀ rc, inodeAnswer fs env ino ≠ some (.failed rc))
    : (walk fs env inos).2 = .tableEnd := by
  induction inos with
  | nil => rfl
  | cons ino rest ih =>
      obtain ⟨first, others⟩ := List.forall_mem_cons.mp sound
      unfold walk
      split
      · exact ih others
      · exact ih others
      · rename_i result notObject answer
        cases result with
        | object fid la => exact absurd rfl (notObject fid la)
        | tableEnd => rfl
        | failed rc => exact absurd answer (first rc)

/-- One inode in front of a walk that meets no error adds its own object, or none. -/
theorem walk_cons {ino : UInt32} {rest : List UInt32}
    (sound : ∀ rc, inodeAnswer fs env ino ≠ some (.failed rc))
    : (walk fs env (ino :: rest)).1 = (walk fs env rest).1
      ∨ ∃ fid la, (walk fs env (ino :: rest)).1 = (ino, fid, la) :: (walk fs env rest).1 := by
  cases answer : inodeAnswer fs env ino with
  | none => simp only [walk, answer, true_or]
  | some result =>
      cases result with
      | object fid la =>
          simp only [walk, answer]
          exact .inr ⟨fid, la, rfl⟩
      | tableEnd => exact absurd answer (inodeAnswer_not_tableEnd ino)
      | failed rc => exact absurd answer (sound rc)

theorem dropWhile_above {objects : List Par.Object} {hash : UInt64}
    (above : ∀ object ∈ objects, hash.toNat < object.1.toNat)
    : objects.dropWhile (fun object => object.1 ≤ hash) = objects := by
  cases objects with
  | nil => rfl
  | cons object rest =>
      have first := above object List.mem_cons_self
      refine List.dropWhile_cons_of_neg ?_
      simp only [decide_eq_true_eq, UInt64.le_iff_toNat_le]
      omega

/-- Loading at a number drops the objects up to that number. -/
theorem tableObjects_dropWhile (regular : fs.Regular) (sound : Unfailing fs env bitmaps)
    {first : Nat} {hash : UInt64} (order : first ≤ hash.toNat)
    : (tableObjects fs env bitmaps first).dropWhile (fun object => object.1 ≤ hash)
      = tableObjects fs env bitmaps hash.toNat := by
  -- the distance to the number counts down; an object on the way has at most that number
  generalize distance : hash.toNat - first = n
  induction n generalizing first with
  | zero =>
      have same : first = hash.toNat := by omega
      subst same
      exact dropWhile_above fun object member => tableObjects_above regular member
  | succ n ih =>
      rw [← ih (show first + 1 ≤ hash.toNat by omega) (by omega)]
      unfold tableObjects
      rcases Nat.lt_or_ge first fs.inodes with inside | past
      · rcases Ldiskfs.allocatedFrom_step bitmaps inside with taken | passed
        · have member : Ldiskfs.inodeAt first ∈ fs.allocatedFrom bitmaps 0 :=
            Ldiskfs.allocatedFrom_subset first (taken ▸ List.mem_cons_self)
          have number := Ldiskfs.inodeAt_toNat regular inside
          rw [taken]
          rcases walk_cons (sound _ member) with none | ⟨fid, la, one⟩
          · rw [none]
          · rw [one, List.map_cons]
            refine List.dropWhile_cons_of_pos ?_
            simp only [tableObject, decide_eq_true_eq, UInt64.le_iff_toNat_le,
              UInt32.toNat_toUInt64]
            omega
        · rw [passed]
      · rw [Ldiskfs.allocatedFrom_past past, Ldiskfs.allocatedFrom_past (by omega)]

/-- The objects of the file system above inode `first`, as a table. -/
def walkTable (fs : Ldiskfs) (env : OsdKernel) (bitmaps : Nat → Nat → Bool) (first : Nat)
    (regular : fs.Regular)
    : Par.ObjectTable where
  objects := tableObjects fs env bitmaps first
  sorted := tableObjects_sorted regular first

/-- On a file system whose inodes are all good for an object or for nothing, a private
iterator is the iterator the parallel harness is written for: loaded at a number it returns
the objects of one and the same table from the first one above that number on, and then the
end. The table is that of the allocated inodes above the reserved ones.
-/
theorem private_iterator_is_load (regular : fs.Regular) (mapped : fs.Mapped env bitmaps)
    (sound : Unfailing fs env bitmaps) (first : Nat) (hash : UInt64) {it : OsdPrivateIt}
    (loaded : it.Positioned fs (max first hash.toNat))
    : ∃ objects, Calls fs env it objects .tableEnd
        ∧ objects.map tableObject = (walkTable fs env bitmaps first regular).load hash := by
  have calls := (loaded.walking env bitmaps).calls regular mapped
  rw [loaded.index, walk_tableEnd] at calls
  · refine ⟨_, calls, ?_⟩
    change tableObjects fs env bitmaps (max first hash.toNat) = List.dropWhile _ _
    rcases Nat.le_total first hash.toNat with below | above
    · rw [Nat.max_eq_right below]
      exact (tableObjects_dropWhile regular sound below).symm
    · rw [Nat.max_eq_left above]
      symm
      apply dropWhile_above
      intro object member
      have number := tableObjects_above regular member
      omega
  · exact fun ino member => sound ino (Ldiskfs.allocatedFrom_subset _ member)

end Table

theorem sampleFs_unfailing : Unfailing sampleFs sampleKernel sampleBitmaps := by
  intro ino member rc failed
  have only : sampleFs.allocatedFrom sampleBitmaps 0 = [1] := by decide
  rw [only] at member
  cases List.mem_singleton.mp member
  cases failed

theorem private_iterator_is_load_sample
    : ∃ objects, Calls sampleFs sampleKernel sampleStart objects .tableEnd
        ∧ objects.map tableObject
          = (walkTable sampleFs sampleKernel sampleBitmaps 0 sampleFs_regular).load 0 :=
  private_iterator_is_load sampleFs_regular sampleFs_mapped sampleFs_unfailing 0 0
    sampleStart_positioned

end LfuScan.Osd
