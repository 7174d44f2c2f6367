import LfuScan.Osd.Iget
import LfuScan.Osd.PrivateIt

/-! The inode-table block a private iterator holds between its calls. The block outlives the
object it was read for, so what has to hold is said about any sequence of calls: the buffer is
that of the block the iterator names, and a value served from it is the current object's.
-/

namespace LfuScan.Osd

open LfuScan.Foundations LfuScan.Lustre LfuScan.Filter LfuScan.Ring LfuScan.Device

/-- No buffer is held and no block is named, or the buffer is that of the named block. -/
def CacheValid (fs : Ldiskfs) (it : OsdOtableIt) : Prop :=
  it.bpBh = none ∧ it.bpBlk = 0 ∨ it.bpBh = some (fs.blocks it.bpBlk)

theorem CacheValid.hold {fs : Ldiskfs} {env : OsdKernel} {it it' : OsdOtableIt} {blk : UInt64}
    (valid : CacheValid fs it) (held : it.hold (env.device fs) blk = some it')
    : CacheValid fs it' ∧ it'.gbase = it.gbase := by
  unfold OsdOtableIt.hold at held
  split at held
  · obtain ⟨bh, read, rfl⟩ := Option.map_eq_some_iff.mp held
    simp only [OsdKernel.device, Option.ite_none_left_eq_some, Option.some.injEq] at read
    exact ⟨.inr (congrArg some read.2.symm), rfl⟩
  · cases held
    exact ⟨valid, rfl⟩

/-- The raw path reads a block or leaves the one it has. -/
theorem CacheValid.igetRaw {fs : Ldiskfs} {it : OsdOtableIt} (valid : CacheValid fs it)
    (env : OsdKernel) (pos : UInt32)
    : CacheValid fs (osdIitIgetRaw (env.device fs) it pos).2
      ∧ (osdIitIgetRaw (env.device fs) it pos).2.gbase = it.gbase := by
  unfold osdIitIgetRaw
  simp only
  repeat' split
  all_goals first
    | exact ⟨valid, rfl⟩
    | exact valid.hold ‹_›

/-- What holds of an iterator between rounds: the cache is valid, and `gbase` is the first
inode of the group.
-/
structure OsdPrivateIt.Valid (fs : Ldiskfs) (it : OsdPrivateIt) : Prop where
  cache : CacheValid fs it.toOsdOtableIt
  based : it.gbase = fs.gbase it.bg

namespace OsdPrivateIt.Valid

variable {fs : Ldiskfs} {env : OsdKernel} {it : OsdPrivateIt}

theorem release (valid : it.Valid fs) : it.release.Valid fs ∧ it.release.bpBh = none := by
  unfold OsdPrivateIt.release
  simp only
  split
  · exact ⟨⟨.inl ⟨rfl, rfl⟩, valid.based⟩, rfl⟩
  · rename_i empty
    exact ⟨⟨valid.cache, valid.based⟩, Option.not_isSome_iff_eq_none.mp empty⟩

theorem nextGroup (valid : it.Valid fs) : (it.nextGroup fs).Valid fs :=
  ⟨valid.release.1.cache, rfl⟩

end OsdPrivateIt.Valid

-----------------------------------------------------------------------------------------
-- Rounds and calls
-----------------------------------------------------------------------------------------

/-- What the visit of an inode leaves as it was, and what it makes of the current record. -/
structure Visited (fs : Ldiskfs) (it : OsdPrivateIt) (out : Option NextResult × OsdPrivateIt)
    : Prop where
  valid : out.2.Valid fs
  bg : out.2.bg = it.bg
  offset : out.2.offset = it.offset
  current :
    ∀ fid la, out.1 = some (.object fid la) → out.2.oiiIno = UInt32.ofNat out.2.posPreload

section Rounds

variable {fs : Ldiskfs} {it : OsdPrivateIt} (env : OsdKernel)

theorem visitIget_visited (valid : it.Valid fs)
    : Visited fs it (visitIget env it (UInt32.ofNat it.posPreload)) := by
  unfold visitIget
  split
  · exact ⟨⟨valid.cache, valid.based⟩, rfl, rfl, fun _ _ _ => rfl⟩
  all_goals
    rename_i lid _
    cases lid <;> exact ⟨⟨valid.cache, valid.based⟩, rfl, rfl, nofun⟩

theorem CacheValid.visitRaw {held : OsdOtableIt} (valid : CacheValid fs held) (pos : UInt32)
    : CacheValid fs (visitRaw fs env held pos).2
      ∧ (visitRaw fs env held pos).2.gbase = held.gbase := by
  unfold Osd.visitRaw
  split
  · exact valid.igetRaw env pos
  · exact ⟨valid, rfl⟩

theorem visitInode_visited (valid : it.Valid fs) : Visited fs it (visitInode fs env it) := by
  obtain ⟨cache, base⟩ := valid.cache.visitRaw env (UInt32.ofNat it.posPreload)
  unfold visitInode
  dsimp only
  generalize visitRaw fs env it.toOsdOtableIt (UInt32.ofNat it.posPreload) = path at *
  obtain ⟨object, held⟩ := path
  have valid : ∀ stats, OsdPrivateIt.Valid fs { it with toOsdOtableIt := held, stats } :=
    fun _ => ⟨cache, base.trans valid.based⟩
  cases object with
  | found fid la => exact ⟨⟨cache, (valid it.stats).based⟩, rfl, rfl, fun _ _ _ => rfl⟩
  | skip => exact ⟨valid it.stats, rfl, rfl, nofun⟩
  | failed rc =>
      simp only
      split
      · obtain ⟨valid, bg, offset, current⟩ := visitIget_visited env (valid _)
        exact ⟨valid, bg, offset, current⟩
      · exact ⟨valid it.stats, rfl, rfl, nofun⟩

end Rounds

/-- What a round leaves: a valid iterator, positioned on the object if it found one, and with
fewer rounds to go if the walk goes on.
-/
structure RoundDone (fs : Ldiskfs) (it : OsdPrivateIt) (out : Option NextResult × OsdPrivateIt)
    : Prop where
  valid : out.2.Valid fs
  current :
    ∀ fid la, out.1 = some (.object fid la) → out.2.oiiIno = UInt32.ofNat out.2.posPreload
  shrinks : out.1 = none → roundsLeft fs out.2 < roundsLeft fs it

section Loop

variable {fs : Ldiskfs} {it : OsdPrivateIt} (env : OsdKernel)

theorem release_bg (it : OsdPrivateIt) : it.release.bg = it.bg := by
  unfold OsdPrivateIt.release
  simp only
  split <;> rfl

theorem nextGroup_done (valid : it.Valid fs) (inside : it.bg < fs.groups.length)
    : RoundDone fs it (none, it.nextGroup fs) := by
  refine ⟨valid.nextGroup, nofun, fun _ => ?_⟩
  have left : fs.groups.length - it.bg = fs.groups.length - (it.bg + 1) + 1 := by omega
  simp only [roundsLeft, OsdPrivateIt.nextGroup, release_bg]
  rw [left, Nat.add_one_mul]
  simp
  omega

theorem searchGroup_done (valid : it.Valid fs) (inside : it.bg < fs.groups.length)
    : RoundDone fs it (searchGroup fs env it) := by
  unfold searchGroup
  split
  · exact nextGroup_done valid inside
  · rename_i offset found
    obtain ⟨bitmap, _, first⟩ := Option.bind_eq_some_iff.mp found
    obtain ⟨after, below⟩ := env.osdIitNext.inside _ _ _ _ first
    have moved : (it.moveTo fs env offset).Valid fs := ⟨valid.cache, valid.based⟩
    obtain ⟨valid, bg, stays, current⟩ := visitInode_visited env moved
    refine ⟨valid, current, fun _ => ?_⟩
    have fits := fs.sb.inodesPerGroup.toNat_lt
    have next : (it.moveTo fs env offset).offset.toNat = offset + 1 :=
      UInt32.toNat_ofNat_of_lt' (Nat.lt_of_le_of_lt below fits)
    have sameGroup : (it.moveTo fs env offset).bg = it.bg := rfl
    simp only [roundsLeft, bg, stays, next, sameGroup]
    omega

/-- The step lemma: one constructor for each exit of a round. -/
theorem privateRound_done (valid : it.Valid fs) : RoundDone fs it (privateRound fs env it) := by
  unfold privateRound
  split
  · exact ⟨valid, nofun, nofun⟩
  · rename_i desc found
    have inside : it.bg < fs.groups.length := (List.getElem?_eq_some_iff.mp found).1
    split
    · exact nextGroup_done valid inside
    · split
      · exact ⟨valid, nofun, nofun⟩
      · rename_i bitmap _
        have opened : OsdPrivateIt.Valid fs
            { it with bitmap := some bitmap, itable := fs.osdGroupItable desc } :=
          ⟨valid.cache, valid.based⟩
        obtain ⟨valid, current, shrinks⟩ := searchGroup_done env opened inside
        exact ⟨valid, current, shrinks⟩

/-- What a call leaves: a valid iterator that is positioned on the object it returned, or
holds no block.
-/
structure CallDone (fs : Ldiskfs) (out : NextResult × OsdPrivateIt) : Prop where
  valid : out.2.Valid fs
  current : ∀ fid la, out.1 = .object fid la → out.2.oiiIno = UInt32.ofNat out.2.posPreload
  dropped : (∀ fid la, out.1 ≠ .object fid la) → out.2.bpBh = none

/-- The run lemma: enough rounds end in an answer. -/
theorem nextPrivateLoop_done (valid : it.Valid fs) {rounds : Nat}
    (enough : roundsLeft fs it < rounds)
    : ∃ out, nextPrivateLoop fs env rounds it = some out ∧ CallDone fs out := by
  induction rounds generalizing it with
  | zero => omega
  | succ rounds ih =>
      rw [nextPrivateLoop]
      split
      · exact ⟨_, rfl, valid.release.1, nofun, fun _ => valid.release.2⟩
      · obtain ⟨valid, current, shrinks⟩ := privateRound_done env valid
        generalize privateRound fs env it = out at *
        obtain ⟨result, after⟩ := out
        cases result with
        | none => exact ih valid (Nat.lt_of_lt_of_le (shrinks rfl) (Nat.le_of_lt_succ enough))
        | some result =>
            cases result with
            | object fid la =>
                exact ⟨_, rfl, valid, fun _ _ _ => current fid la rfl,
                  fun other => absurd rfl (other fid la)⟩
            | tableEnd => exact ⟨_, rfl, valid.release.1, nofun, fun _ => valid.release.2⟩
            | failed rc => exact ⟨_, rfl, valid.release.1, nofun, fun _ => valid.release.2⟩

theorem osdOtableItNextPrivate_done (valid : it.Valid fs)
    : ∃ out, osdOtableItNextPrivate fs env it = some out ∧ CallDone fs out :=
  nextPrivateLoop_done env valid (Nat.lt_succ_self _)

end Loop

section Record

variable {fs : Ldiskfs} {it : OsdPrivateIt}

/-- The first inode of a group there is has a number of 32 bits. -/
theorem Ldiskfs.gbase_toNat {bg : Nat} (inside : bg < fs.groups.length)
    : (fs.gbase bg).toNat = 1 + bg * fs.perGroup := by
  have fits : fs.groups.length * fs.perGroup < 2 ^ 32 := fs.inodes_fit
  refine UInt32.toNat_ofNat_of_lt' (?_ : _ < 2 ^ 32)
  obtain none | some := Nat.eq_zero_or_pos fs.perGroup
  · rw [none, Nat.mul_zero]
    decide
  · have below : (bg + 1) * fs.perGroup ≤ fs.groups.length * fs.perGroup :=
      Nat.mul_le_mul_right _ inside
    rw [Nat.add_one_mul] at below
    omega

/-- The place of an inode in its group, by its distance from the group's first one. -/
theorem group_of_index {pg bg index ino : Nat} (below : index < pg)
    (placed : ino = 1 + bg * pg + index)
    : (ino - 1) / pg = bg ∧ (ino - 1) % pg = index := by
  have shift : ino - 1 = index + pg * bg := by
    rw [placed, Nat.mul_comm]
    omega
  rw [shift, Nat.add_mul_div_left _ _ (by omega), Nat.add_mul_mod_self_left,
    Nat.div_eq_of_lt below, Nat.mod_eq_of_lt below]
  exact ⟨Nat.zero_add bg, rfl⟩

/-- The byte offset of a record in its block does not wrap. -/
theorem recordOffset_toNat (sb : SuperBlock) {index : UInt32}
    (packed : sb.sBlocksize / sb.inodeSize ≠ 0)
    : (index % (sb.sBlocksize / sb.inodeSize) * sb.inodeSize).toNat
        = index.toNat % (sb.sBlocksize.toNat / sb.inodeSize.toNat) * sb.inodeSize.toNat := by
  have some : 0 < sb.sBlocksize.toNat / sb.inodeSize.toNat := by
    rw [← UInt32.toNat_div]
    exact Nat.pos_of_ne_zero fun zero => packed (UInt32.toNat_inj.mp zero)
  have below := Nat.mod_lt index.toNat some
  have inBlock := Nat.div_mul_le_self sb.sBlocksize.toNat sb.inodeSize.toNat
  have fits := sb.sBlocksize.toNat_lt
  have small := Nat.mul_le_mul_right sb.inodeSize.toNat (Nat.le_of_lt below)
  rw [UInt32.toNat_mul, UInt32.toNat_mod, UInt32.toNat_div]
  exact Nat.mod_eq_of_lt (by omega)

/-- The record taken from the held block is the one of the inode in the current record. -/
theorem heldRecord_current (valid : it.Valid fs) {raw : Bytes} (held : heldRecord fs it = some raw)
    : it.bpBh ≠ none ∧ fs.inodeRecord it.oiiIno = some raw := by
  unfold heldRecord at held
  split at held
  case h_2 => cases held
  rename_i bh desc holds found
  refine ⟨by simp [holds], ?_⟩
  have inside : it.bg < fs.groups.length := (List.getElem?_eq_some_iff.mp found).1
  have block : it.bpBh = some (fs.blocks it.bpBlk) := by
    obtain ⟨empty, _⟩ | block := valid.cache
    · rw [holds] at empty
      cases empty
    · exact block
  simp only [Option.ite_none_right_eq_some, Bool.and_eq_true, decide_eq_true_eq, beq_iff_eq,
    bne_iff_ne, Option.some.injEq] at held
  obtain ⟨⟨⟨⟨after, packed⟩, below⟩, same⟩, rfl⟩ := held
  rw [valid.based] at after below same
  have index := UInt32.toNat_sub_of_le _ _ after
  rw [UInt32.lt_iff_toNat_lt, index] at below
  rw [ge_iff_le, UInt32.le_iff_toNat_le] at after
  rw [Ldiskfs.gbase_toNat inside] at after below index
  obtain ⟨group, place⟩ := group_of_index below
    (show it.oiiIno.toNat = 1 + it.bg * fs.perGroup + _ by omega)
  have blk : fs.osdGroupItable desc + UInt64.ofNat
      ((it.oiiIno.toNat - (1 + it.bg * fs.perGroup))
        / (fs.sb.sBlocksize.toNat / fs.sb.inodeSize.toNat))
      = it.bpBlk := by
    rw [← same, ← index, ← UInt32.toNat_div, ← UInt32.toNat_div,
      UInt64.ofNat_uInt32ToNat]
  simp only [Ldiskfs.inodeRecord, group, place, found, Option.map_some, blk,
    OsdOtableIt.inodeRecord, block, Option.getD_some, valid.based, recordOffset_toNat _ packed,
    index]

end Record

/-- What `dox` asks for, answered from `raw`: the length of the value found there, and the
value in the buffer unless the buffer is too small.
-/
structure ServedFrom (fs : Ldiskfs) (raw : Bytes) (dox : DtOtableXattr)
    (rc : Int) (dox' : DtOtableXattr) (doxName name buf : Bytes) (off len : Nat) : Prop where
  asked : dox.doxName = some doxName ∧ dox.doxBuf = some buf
  named : trustedName doxName = some name
  found : osdRawXattr fs.sb raw lfuXattrIndexTrusted name = .ok (off, len)
  length : dox'.doxLen = UInt32.ofNat len
  value :
    rc = -erange ∧ dox.doxBuflen.toNat < len ∧ dox'.doxBuf = some buf
    ∨ rc = len ∧ dox'.doxBuf = some (window raw off len ++ buf.drop len)

section Serve

variable {fs : Ldiskfs} {env : OsdKernel} {it : OsdPrivateIt}

/-- A live inode is never reported as the held block. -/
theorem xattrByInode_where {dox : DtOtableXattr} {doxName buf : Bytes} {doxWhere : DoxWhere}
    (before : dox.doxWhere ≠ .inline) (through : doxWhere ≠ .inline)
    : (xattrByInode env it dox doxName buf doxWhere).2.1.doxWhere ≠ .inline := by
  unfold xattrByInode
  split
  · exact before
  · simp only
    split
    · exact through
    · exact before

theorem heldLookup_record {doxName raw name : Bytes}
    (held : heldLookup fs it doxName = some (raw, name))
    : heldRecord fs it = some raw ∧ trustedName doxName = some name := by
  simp only [heldLookup, Option.bind_eq_bind, Option.bind_eq_some_iff,
    Option.ite_none_right_eq_some, Option.some.injEq, Prod.mk.injEq] at held
  obtain ⟨_, named, _, record, _, rfl, rfl⟩ := held
  exact ⟨record, named⟩

/-- A value reported as inline is read from the held record of the current object. -/
theorem osdOtableItXattr_inline (valid : it.Valid fs) {dox dox' : DtOtableXattr} {rc : Int}
    {it' : OsdPrivateIt} (answer : osdOtableItXattr fs env it dox = (rc, dox', it'))
    (accepted : rc ≠ -einval) (served : dox'.doxWhere = .inline)
    : it.bpBh ≠ none
      ∧ ∃ raw doxName name buf off len,
          fs.inodeRecord it.oiiIno = some raw
          ∧ ServedFrom fs raw dox rc dox' doxName name buf off len := by
  unfold osdOtableItXattr at answer
  split at answer
  case h_2 => exact absurd (congrArg Prod.fst answer).symm accepted
  rename_i doxName buf asked buffer
  -- both ways through a live inode report something else
  have byInode {doxWhere : DoxWhere}
      (answer : xattrByInode env it { dox with doxLen := 0, doxWhere := .none } doxName buf doxWhere
        = (rc, dox', it'))
      (through : doxWhere ≠ .inline)
      : False := by
    have reported := congrArg (fun out => out.2.1.doxWhere) answer
    exact xattrByInode_where (by simp) through (reported.trans served)
  simp only at answer
  split at answer
  · exact (byInode answer (by decide)).elim
  rename_i raw name held
  obtain ⟨record, named⟩ := heldLookup_record held
  obtain ⟨holds, current⟩ := heldRecord_current valid record
  split at answer
  · rename_i off len found
    refine ⟨holds, raw, doxName, name, buf, off, len, current, ?_⟩
    split at answer <;> cases answer
    · rename_i long
      exact ⟨⟨asked, buffer⟩, named, found, rfl, .inl ⟨rfl, long, buffer⟩⟩
    · exact ⟨⟨asked, buffer⟩, named, found, rfl, .inr ⟨rfl, rfl⟩⟩
  · split at answer
    · cases answer
      cases served
    · exact (byInode answer (by decide)).elim

/-- A request changes nothing of the iterator but its counters. -/
theorem osdOtableItXattr_it (fs : Ldiskfs) (env : OsdKernel) (it : OsdPrivateIt)
    (dox : DtOtableXattr)
    : ∃ stats, (osdOtableItXattr fs env it dox).2.2 = { it with stats } := by
  have byInode (dox : DtOtableXattr) (doxName buf : Bytes) (doxWhere : DoxWhere)
      : ∃ stats, (xattrByInode env it dox doxName buf doxWhere).2.2 = { it with stats } := by
    unfold xattrByInode
    split
    · exact ⟨_, rfl⟩
    · simp only
      split <;> exact ⟨_, rfl⟩
  unfold osdOtableItXattr
  split
  · simp only
    split
    · exact byInode ..
    · split
      · split <;> exact ⟨_, rfl⟩
      · split
        · exact ⟨_, rfl⟩
        · exact byInode ..
  · exact ⟨_, rfl⟩

end Serve

-----------------------------------------------------------------------------------------
-- Sequences of calls
-----------------------------------------------------------------------------------------

/-- An iterator in use, and the inode of the object the last successful `next` returned. -/
structure ItSession where
  it : OsdPrivateIt
  last : Option UInt32

/-- One call, of `next` or of `rec` for an attribute, in any kernel. -/
inductive ItSession.Call (fs : Ldiskfs) (s : ItSession) : ItSession → Prop
  | object (env : OsdKernel) {fid la it}
      (returned : osdOtableItNextPrivate fs env s.it = some (.object fid la, it))
      : Call fs s ⟨it, some (UInt32.ofNat it.posPreload)⟩
  | noObject (env : OsdKernel) {result it}
      (returned : osdOtableItNextPrivate fs env s.it = some (result, it))
      (other : ∀ fid la, result ≠ .object fid la)
      : Call fs s ⟨it, s.last⟩
  | xattr (env : OsdKernel) (dox : DtOtableXattr)
      : Call fs s ⟨(osdOtableItXattr fs env s.it dox).2.2, s.last⟩

/-- An iterator before its first call: it is at the start of some group, or inside it, and
holds no block.
-/
structure OsdPrivateIt.Fresh (fs : Ldiskfs) (it : OsdPrivateIt) : Prop where
  noBuffer : it.bpBh = none
  noBlock : it.bpBlk = 0
  based : it.gbase = fs.gbase it.bg

/-- The sessions any sequence of calls leads to. -/
inductive ItSession.Reached (fs : Ldiskfs) (start : OsdPrivateIt) : ItSession → Prop
  | start : Reached fs start ⟨start, none⟩
  | call {s s'} (before : Reached fs start s) (called : s.Call fs s') : Reached fs start s'

/-- The invariant of a session: a block is held only while the current record is that of the
object returned last.
-/
structure ItSession.Valid (fs : Ldiskfs) (s : ItSession) : Prop where
  it : s.it.Valid fs
  current : s.it.bpBh ≠ none → s.last = some s.it.oiiIno

theorem ItSession.Valid.call {fs : Ldiskfs} {s s' : ItSession} (valid : s.Valid fs)
    (called : s.Call fs s')
    : s'.Valid fs := by
  cases called with
  | object env returned =>
      obtain ⟨out, answer, after, current, _⟩ := osdOtableItNextPrivate_done env valid.it
      cases answer.symm.trans returned
      exact ⟨after, fun _ => congrArg some (current _ _ rfl).symm⟩
  | noObject env returned other =>
      obtain ⟨out, answer, after, _, dropped⟩ := osdOtableItNextPrivate_done env valid.it
      cases answer.symm.trans returned
      exact ⟨after, fun holds => absurd (dropped other) holds⟩
  | xattr env dox =>
      obtain ⟨stats, same⟩ := osdOtableItXattr_it fs env s.it dox
      rw [same]
      exact ⟨⟨valid.it.cache, valid.it.based⟩, valid.current⟩

theorem ItSession.Reached.valid {fs : Ldiskfs} {start : OsdPrivateIt} {s : ItSession}
    (fresh : start.Fresh fs) (reached : Reached fs start s)
    : s.Valid fs := by
  induction reached with
  | start =>
      exact ⟨⟨.inl ⟨fresh.noBuffer, fresh.noBlock⟩, fresh.based⟩,
        fun holds => absurd fresh.noBuffer holds⟩
  | call _ called before => exact before.call called

/-- After any sequence of calls the held buffer is that of the block the iterator names, and
a value served as inline is read from the record of the object the last successful `next`
returned. Every `next` returns.
-/
theorem inline_xattr_is_current {fs : Ldiskfs} {start : OsdPrivateIt} (fresh : start.Fresh fs)
    {s : ItSession} (reached : s.Reached fs start)
    : CacheValid fs s.it.toOsdOtableIt
      ∧ (∀ env, ∃ out, osdOtableItNextPrivate fs env s.it = some out)
      ∧ ∀ env dox rc dox' it', osdOtableItXattr fs env s.it dox = (rc, dox', it') →
          rc ≠ -einval → dox'.doxWhere = .inline →
            ∃ ino raw doxName name buf off len,
              s.last = some ino
              ∧ fs.inodeRecord ino = some raw
              ∧ ServedFrom fs raw dox rc dox' doxName name buf off len := by
  have valid := reached.valid fresh
  refine ⟨valid.it.cache, fun env => ?_, fun env dox rc dox' it' answer accepted served => ?_⟩
  · obtain ⟨out, returned, _⟩ := osdOtableItNextPrivate_done env valid.it
    exact ⟨out, returned⟩
  · obtain ⟨holds, raw, doxName, name, buf, off, len, record, value⟩ :=
      osdOtableItXattr_inline valid.it answer accepted served
    exact ⟨s.it.oiiIno, raw, doxName, name, buf, off, len, valid.current holds, record, value⟩

/-- One group of four inodes in one block, of which the first is in use. -/
def sampleFs : Ldiskfs where
  sb :=
    {
      inodeSize := 256
      sBlocksize := 1024
      sBlocksizeBits := 10
      inodesPerGroup := 4
      bits_valid := by decide
    }
  descSize := 32
  sInodesCount := 4
  groups := [{ bgInodeTableLo := 100 }]
  blocks := fun _ => sampleRecord 1700000000 0
  rootIno := 2
  isRemoteParentIno := fun _ => false
  inodes_fit := by decide

/-- The first bit that is set, from some place on. -/
def firstSetBit (bitmap : Nat → Bool) (size offset : Nat) : Option Nat :=
  (List.range' offset (size - offset)).find? bitmap

theorem firstSetBit_inside (bitmap : Nat → Bool) (size offset index : Nat)
    (first : firstSetBit bitmap size offset = some index)
    : offset ≤ index ∧ index < size := by
  have member := List.mem_of_find?_eq_some first
  rw [List.mem_range'_1] at member
  omega

def sampleKernel : OsdKernel where
  lfuBlockparse := true
  lfuRaBlocks := 32
  badBlock := fun _ => false
  ldiskfsReadInodeBitmap := fun _ => .ok (· == 0)
  osdIitNext := { next := firstSetBit, inside := firstSetBit_inside }
  osdIitIget := fun _ => .skip true
  osdIget := fun _ => .error (-eio)

def sampleStart : OsdPrivateIt where
  gbase := 1
  itable := 0
  bg := 0
  offset := 0
  posPreload := 1

/-- A request for "trusted.lma". -/
def sampleRequest : DtOtableXattr where
  doxName := some (xattrTrusted ++ lmaName)
  doxBuf := some []
  doxBuflen := 64

/-- The attribute of the first object, served from the block it was found in. -/
theorem inline_xattr_is_current_first
    : ∃ fid la it rc dox' it',
        osdOtableItNextPrivate sampleFs sampleKernel sampleStart = some (.object fid la, it)
        ∧ osdOtableItXattr sampleFs sampleKernel it sampleRequest = (rc, dox', it')
        ∧ dox'.doxWhere = .inline
        ∧ ∃ raw doxName name buf off len,
            sampleFs.inodeRecord 1 = some raw
            ∧ ServedFrom sampleFs raw sampleRequest rc dox' doxName name buf off len := by
  refine ⟨_, _, _, _, _, _, rfl, rfl, rfl, ?_⟩
  have fresh : sampleStart.Fresh sampleFs := ⟨rfl, rfl, rfl⟩
  have returned
      : osdOtableItNextPrivate sampleFs sampleKernel sampleStart = some (.object _ _, _) :=
    rfl
  have reached := ItSession.Reached.call .start (.object sampleKernel returned)
  obtain ⟨ino, raw, doxName, name, buf, off, len, last, rest⟩ :=
    (inline_xattr_is_current fresh reached).2.2 sampleKernel sampleRequest _ _ _ rfl
      (by decide) rfl
  cases last
  exact ⟨raw, doxName, name, buf, off, len, rest⟩

end LfuScan.Osd
