import LfuScan.Filter.Bounds
import LfuScan.Osd.RawInode

/-! The lookup of an attribute in a raw inode record. The chain of entries is written out as
the list of their offsets, and the walk is a search in that list; what it answers is then
compared with the attributes an area was written with. The walk is also written over faulting
loads, as a walk that gives no answer when its rounds run out.

An inode record is as long as the super block says. ldiskfs mounts powers of two; the only
length that matters here is 129, which would hold the first byte of `i_extra_isize` and not
the second.
-/

namespace LfuScan.Osd

open LfuScan.Foundations LfuScan.Lustre LfuScan.Device

-----------------------------------------------------------------------------------------
-- The chain
-----------------------------------------------------------------------------------------

theorem lfuXattrLen_ge (nlen : UInt8) : lfuXattrEntrySize + nlen.toNat ≤ lfuXattrLen nlen := by
  simp only [lfuXattrLen, lfuXattrEntrySize]
  omega

/-- The offsets of the entries from `entry` on, up to the terminator or to where the record
has no room for another one.
-/
def entryChain (raw : Bytes) (isize entry : Nat) : List Nat :=
  if entry + lfuXattrEntrySize > isize ∨ lfuLe32 raw entry = 0 then
    []
  else
    entry :: entryChain raw isize (entry + lfuXattrLen (byteAt raw entry))
termination_by isize - entry
decreasing_by
  rename_i more
  have long := lfuXattrLen_ge (byteAt raw entry)
  simp only [lfuXattrEntrySize] at more long
  omega

/-- The entry at `entry` has this index and this name, all of it inside the record. -/
def entryNamed (raw : Bytes) (isize : Nat) (index : UInt8) (name : Bytes) (entry : Nat) : Bool :=
  byteAt raw (entry + 1) == index
    && (byteAt raw entry).toNat == name.length
    && decide (entry + lfuXattrLen (byteAt raw entry) ≤ isize)
    && window raw (entry + lfuXattrEntrySize) name.length == name

/-- Where the value of the entry at `entry` starts in the record. -/
def valueStart (raw : Bytes) (first entry : Nat) : Nat :=
  first + (lfuLe16 raw (entry + 2)).toNat

def valueSize (raw : Bytes) (entry : Nat) : Nat := (lfuLe32 raw (entry + 8)).toNat

/-- The value of the entry at `entry` is stored in the record. -/
structure ValueInside (raw : Bytes) (isize first entry : Nat) : Prop where
  noInode : lfuLe32 raw (entry + 4) = 0
  fits : valueStart raw first entry + valueSize raw entry ≤ isize

instance (raw : Bytes) (isize first entry : Nat) : Decidable (ValueInside raw isize first entry) :=
  decidable_of_iff (_ ∧ _)
    ⟨fun both => ⟨both.1, both.2⟩, fun inside => ⟨inside.noInode, inside.fits⟩⟩

/-- What the lookup makes of the entry it found. -/
def entryValue (raw : Bytes) (isize first : Nat) : Option Nat → Except Int (Nat × Nat)
  | none => .error (-enodata)
  | some entry =>
      if ValueInside raw isize first entry then
        .ok (valueStart raw first entry, valueSize raw entry)
      else
        .error (-eopnotsupp)

/-- One round of the walk: it ends, answers for the entry it is at, or goes on. -/
theorem osdRawXattrLoop_succ (raw : Bytes) (isize first : Nat) (index : UInt8) (name : Bytes)
    (fuel entry : Nat)
    : osdRawXattrLoop raw isize first index name (fuel + 1) entry
        = if entry + lfuXattrEntrySize > isize ∨ lfuLe32 raw entry = 0 then
            .error (-enodata)
          else if entryNamed raw isize index name entry then
            entryValue raw isize first (some entry)
          else
            osdRawXattrLoop raw isize first index name fuel
              (entry + lfuXattrLen (byteAt raw entry)) := by
  have skipped : (byteAt raw (entry + 1) != index || (byteAt raw entry).toNat != name.length
      || entry + lfuXattrLen (byteAt raw entry) > isize
      || (raw.drop (entry + lfuXattrEntrySize)).take name.length != name)
        = !entryNamed raw isize index name entry := by
    simp only [entryNamed, window, Bool.not_and, bne, gt_iff_lt, ← Nat.not_le, decide_not]
  have answered : (if lfuLe32 raw (entry + 4) != 0 then .error (-eopnotsupp)
      else if first + (lfuLe16 raw (entry + 2)).toNat + (lfuLe32 raw (entry + 8)).toNat > isize
        then .error (-eopnotsupp)
      else .ok (first + (lfuLe16 raw (entry + 2)).toNat, (lfuLe32 raw (entry + 8)).toNat))
        = entryValue raw isize first (some entry) := by
    by_cases inside : ValueInside raw isize first entry
    · have fits := inside.fits
      simp only [valueStart, valueSize] at fits
      simp only [entryValue, if_pos inside, valueStart, valueSize, inside.noInode]
      rw [if_neg (by decide), if_neg (by omega)]
    · have outside : lfuLe32 raw (entry + 4) = 0
          → isize < valueStart raw first entry + valueSize raw entry :=
        fun noInode => Nat.lt_of_not_le fun fits => inside ⟨noInode, fits⟩
      simp only [entryValue, if_neg inside]
      split
      · rfl
      · rename_i noInode
        exact if_pos (outside (by simpa using noInode))
  rw [osdRawXattrLoop]
  simp only [skipped, answered]
  cases entryNamed raw isize index name entry <;> grind

/-- The walk is a search for the first entry so named. -/
theorem osdRawXattrLoop_eq_find (raw : Bytes) (isize first : Nat) (index : UInt8) (name : Bytes)
    {fuel entry : Nat} (enough : isize < entry + lfuXattrEntrySize * fuel)
    : osdRawXattrLoop raw isize first index name fuel entry
        = entryValue raw isize first
            ((entryChain raw isize entry).find? (entryNamed raw isize index name)) := by
  induction fuel generalizing entry with
  | zero =>
      rw [entryChain, if_pos (.inl (by omega))]
      rfl
  | succ fuel ih =>
      rw [osdRawXattrLoop_succ, entryChain]
      split
      · rfl
      · have long := lfuXattrLen_ge (byteAt raw entry)
        rw [List.find?_cons, ih (by simp only [lfuXattrEntrySize] at *; omega)]
        cases entryNamed raw isize index name entry <;> rfl

/-- Where the entries start: after the inode, its extension and the magic. -/
def firstEntry (raw : Bytes) : Nat :=
  goodOldInodeSize + (lfuLe16 raw goodOldInodeSize).toNat + 4

/-- The record has an attribute area. -/
structure HasArea (sb : SuperBlock) (raw : Bytes) : Prop where
  large : goodOldInodeSize < sb.inodeSize.toNat
  aligned : lfuLe16 raw goodOldInodeSize &&& 3 = 0
  inside : firstEntry raw ≤ sb.inodeSize.toNat
  magic :
    lfuLe32 raw (goodOldInodeSize + (lfuLe16 raw goodOldInodeSize).toNat) = lfuXattrMagic

theorem osdRawXattr_area {sb : SuperBlock} {raw : Bytes} (area : HasArea sb raw)
    (index : UInt8) (name : Bytes)
    : osdRawXattr sb raw index name
        = entryValue raw sb.inodeSize.toNat (firstEntry raw)
            ((entryChain raw sb.inodeSize.toNat (firstEntry raw)).find?
              (entryNamed raw sb.inodeSize.toNat index name)) := by
  have large := area.large
  have inside := area.inside
  have enough : sb.inodeSize.toNat < firstEntry raw + lfuXattrEntrySize * sb.inodeSize.toNat := by
    simp only [goodOldInodeSize, lfuXattrEntrySize] at *
    omega
  rw [← osdRawXattrLoop_eq_find raw sb.inodeSize.toNat (firstEntry raw) index name enough]
  unfold osdRawXattr
  simp only [firstEntry] at inside
  rw [if_neg (by omega), if_neg (by simp [area.aligned]; omega), if_neg (by simp [area.magic])]
  rfl

theorem osdRawXattr_noArea {sb : SuperBlock} {raw : Bytes} (noArea : ¬ HasArea sb raw)
    (index : UInt8) (name : Bytes)
    : ∃ rc, osdRawXattr sb raw index name = .error rc := by
  unfold osdRawXattr
  by_cases large : sb.inodeSize.toNat ≤ goodOldInodeSize
  · exact ⟨_, if_pos large⟩
  rw [if_neg large]
  by_cases placed : lfuLe16 raw goodOldInodeSize &&& 3 = 0
      ∧ firstEntry raw ≤ sb.inodeSize.toNat
  · refine ⟨-enodata, ?_⟩
    have misplaced : ¬ goodOldInodeSize + (lfuLe16 raw goodOldInodeSize).toNat + 4
        > sb.inodeSize.toNat := Nat.not_lt.mpr placed.2
    rw [if_neg (by simpa [placed.1] using misplaced)]
    refine if_pos (bne_iff_ne.mpr fun magic => noArea ?_)
    exact ⟨Nat.lt_of_not_le large, placed.1, placed.2, magic⟩
  · refine ⟨-eopnotsupp, if_pos ?_⟩
    rw [Bool.or_eq_true, bne_iff_ne, decide_eq_true_eq]
    exact (Decidable.not_and_iff_or_not.mp placed).imp id Nat.lt_of_not_le

/-- The lookup answers with the value of the first entry so named. -/
theorem osdRawXattr_ok_iff (sb : SuperBlock) (raw : Bytes) (index : UInt8) (name : Bytes)
    (off len : Nat)
    : osdRawXattr sb raw index name = .ok (off, len)
        ↔ HasArea sb raw
          ∧ ∃ entry,
              (entryChain raw sb.inodeSize.toNat (firstEntry raw)).find?
                  (entryNamed raw sb.inodeSize.toNat index name)
                = some entry
              ∧ ValueInside raw sb.inodeSize.toNat (firstEntry raw) entry
              ∧ off = valueStart raw (firstEntry raw) entry
              ∧ len = valueSize raw entry := by
  by_cases area : HasArea sb raw
  · rw [osdRawXattr_area area]
    cases List.find? _ _ with
    | none => simp [entryValue]
    | some entry =>
        by_cases inside : ValueInside raw sb.inodeSize.toNat (firstEntry raw) entry
        · simp [entryValue, inside, area, eq_comm]
        · simp [entryValue, inside]
  · obtain ⟨rc, failed⟩ := osdRawXattr_noArea area index name
    simp [failed, area]

-----------------------------------------------------------------------------------------
-- What an area stores
-----------------------------------------------------------------------------------------

/-- An attribute, as it was set. -/
structure Xattr where
  index : UInt8
  name : Bytes
  value : Bytes
deriving DecidableEq

/-- The attribute of this index and name. -/
def Xattr.named (index : UInt8) (name : Bytes) (attr : Xattr) : Bool :=
  attr.index == index && attr.name == name

/-- The entry at `entry` stores `attr`, name and value both inside the record. -/
structure EntryStores (raw : Bytes) (isize first entry : Nat) (attr : Xattr) : Prop where
  notLast : lfuLe32 raw entry ≠ 0
  index : byteAt raw (entry + 1) = attr.index
  nameLen : (byteAt raw entry).toNat = attr.name.length
  nameInside : entry + lfuXattrLen (byteAt raw entry) ≤ isize
  name : window raw (entry + lfuXattrEntrySize) attr.name.length = attr.name
  valueInside : ValueInside raw isize first entry
  value : window raw (valueStart raw first entry) (valueSize raw entry) = attr.value

/-- The entries from `entry` on store these attributes, and a terminator closes them. -/
def StoredFrom (raw : Bytes) (isize first : Nat) : Nat → List Xattr → Prop
  | entry, [] => entry + 4 ≤ isize ∧ lfuLe32 raw entry = 0
  | entry, attr :: attrs =>
      EntryStores raw isize first entry attr
      ∧ StoredFrom raw isize first (entry + lfuXattrLen (byteAt raw entry)) attrs

/-- A well-formed area, and the attributes it stores. -/
structure XattrArea (sb : SuperBlock) (raw : Bytes) (attrs : List Xattr) : Prop
    extends HasArea sb raw where
  stored : StoredFrom raw sb.inodeSize.toNat (firstEntry raw) (firstEntry raw) attrs

theorem EntryStores.entryNamed (stores : EntryStores raw isize first entry attr)
    (index : UInt8) (name : Bytes)
    : entryNamed raw isize index name entry = attr.named index name := by
  have sameName : (attr.name.length == name.length
      && window raw (entry + lfuXattrEntrySize) name.length == name) = (attr.name == name) := by
    rw [Bool.eq_iff_iff, Bool.and_eq_true, beq_iff_eq, beq_iff_eq, beq_iff_eq]
    constructor
    · rintro ⟨long, same⟩
      rw [← long, stores.name] at same
      exact same
    · rintro rfl
      exact ⟨rfl, stores.name⟩
  simp only [Osd.entryNamed, Xattr.named, stores.index, stores.nameLen, stores.nameInside,
    decide_true, Bool.and_true, Bool.and_assoc, sameName]

theorem EntryStores.entryChain (stores : EntryStores raw isize first entry attr)
    : entryChain raw isize entry
        = entry :: entryChain raw isize (entry + lfuXattrLen (byteAt raw entry)) := by
  have long := lfuXattrLen_ge (byteAt raw entry)
  have inside := stores.nameInside
  rw [Osd.entryChain, if_neg]
  rintro (ended | zero)
  · omega
  · exact stores.notLast zero

/-- The search along the chain finds the entry of the attribute a search among the stored
ones finds.
-/
theorem StoredFrom.find (index : UInt8) (name : Bytes) {attrs : List Xattr}
    (stored : StoredFrom raw isize first entry attrs)
    : (attrs.find? (Xattr.named index name) = none
        ∧ (entryChain raw isize entry).find? (entryNamed raw isize index name) = none)
      ∨ ∃ attr found,
          attrs.find? (Xattr.named index name) = some attr
          ∧ (entryChain raw isize entry).find? (entryNamed raw isize index name) = some found
          ∧ EntryStores raw isize first found attr := by
  induction attrs generalizing entry with
  | nil =>
      refine .inl ⟨rfl, ?_⟩
      rw [entryChain, if_pos (.inr stored.2)]
      rfl
  | cons attr attrs ih =>
      rw [stored.1.entryChain, List.find?_cons, List.find?_cons, stored.1.entryNamed]
      cases attr.named index name with
      | true => exact .inr ⟨attr, entry, rfl, rfl, stored.1⟩
      | false => exact ih stored.2

theorem Xattr.named_iff (index : UInt8) (name : Bytes) (attr : Xattr)
    : attr.named index name = true ↔ attr = ⟨index, name, attr.value⟩ := by
  cases attr
  simp [named]

/-- The lookup in a well-formed area gives the bytes of the first attribute so named. -/
theorem XattrArea.lookup_iff (area : XattrArea sb raw attrs) (index : UInt8) (name value : Bytes)
    : (∃ off len, osdRawXattr sb raw index name = .ok (off, len) ∧ window raw off len = value)
        ↔ attrs.find? (Xattr.named index name) = some ⟨index, name, value⟩ := by
  rw [osdRawXattr_area area.toHasArea]
  obtain ⟨absent, missed⟩ | ⟨attr, entry, present, found, stores⟩ := area.stored.find index name
  · simp [absent, missed, entryValue]
  · have self := (Xattr.named_iff ..).mp (List.find?_some present)
    rw [self] at present
    simp [present, found, entryValue, stores.valueInside, stores.value]

theorem XattrArea.found_iff (area : XattrArea sb raw attrs) (index : UInt8) (name : Bytes)
    : (∃ off len, osdRawXattr sb raw index name = .ok (off, len))
        ↔ ∃ value, ⟨index, name, value⟩ ∈ attrs := by
  constructor
  · rintro ⟨off, len, found⟩
    exact ⟨_, List.mem_of_find?_eq_some
      ((area.lookup_iff index name _).mp ⟨off, len, found, rfl⟩)⟩
  · rintro ⟨value, stored⟩
    have some_named : (attrs.find? (Xattr.named index name)).isSome :=
      List.find?_isSome.mpr ⟨_, stored, (Xattr.named_iff ..).mpr rfl⟩
    obtain ⟨attr, present⟩ := Option.isSome_iff_exists.mp some_named
    rw [(Xattr.named_iff ..).mp (List.find?_some present)] at present
    obtain ⟨off, len, found, _⟩ := (area.lookup_iff index name _).mpr present
    exact ⟨off, len, found⟩

namespace Checked

open LfuScan.Filter.Checked

/-- `memcmp` with the name, after the tests that come before it. -/
def nameDiffers (raw : Bytes) (isize : Nat) (index : UInt8) (name : Bytes) (entry : Nat)
    : Option Bool := do
  let nameIndex ← load raw (entry + 1)
  let nameLen ← load raw entry
  if nameIndex != index || nameLen.toNat != name.length
      || entry + lfuXattrLen nameLen > isize then
    return true
  else
    let stored ← loadRange raw (entry + lfuXattrEntrySize) name.length
    return stored != name

def osdRawXattrLoop (raw : Bytes) (isize first : Nat) (index : UInt8) (name : Bytes)
    : Nat → Nat → Option (Except Int (Nat × Nat))
  | 0, _ => none
  | fuel + 1, entry =>
      if entry + lfuXattrEntrySize > isize then
        some (.error (-enodata))
      else do
        let head ← lfuLe32 raw entry
        if head == 0 then
          return .error (-enodata)
        else
          let differs ← nameDiffers raw isize index name entry
          if differs then
            let nameLen ← load raw entry
            osdRawXattrLoop raw isize first index name fuel (entry + lfuXattrLen nameLen)
          else
            let inum ← lfuLe32 raw (entry + 4)
            if inum != 0 then
              return .error (-eopnotsupp)
            else
              let vsize ← lfuLe32 raw (entry + 8)
              let voffs ← lfuLe16 raw (entry + 2)
              if first + voffs.toNat + vsize.toNat > isize then
                return .error (-eopnotsupp)
              else
                return .ok (first + voffs.toNat, vsize.toNat)

def osdRawXattr (sb : SuperBlock) (raw : Bytes) (index : UInt8) (name : Bytes)
    : Option (Except Int (Nat × Nat)) :=
  let isize := sb.inodeSize.toNat
  if isize ≤ goodOldInodeSize then
    some (.error (-enodata))
  else do
    let extra ← lfuLe16 raw goodOldInodeSize
    if extra &&& 3 != 0 || goodOldInodeSize + extra.toNat + 4 > isize then
      return .error (-eopnotsupp)
    else
      let ibody := goodOldInodeSize + extra.toNat
      let magic ← lfuLe32 raw ibody
      if magic != lfuXattrMagic then
        return .error (-enodata)
      else
        osdRawXattrLoop raw isize (ibody + 4) index name isize (ibody + 4)

theorem nameDiffers_inside {raw : Bytes} {isize entry : Nat} (sized : raw.length = isize)
    (room : entry + lfuXattrEntrySize ≤ isize) (index : UInt8) (name : Bytes)
    : nameDiffers raw isize index name entry
        = some (byteAt raw (entry + 1) != index || (byteAt raw entry).toNat != name.length
            || entry + lfuXattrLen (byteAt raw entry) > isize
            || (raw.drop (entry + lfuXattrEntrySize)).take name.length != name) := by
  have long := lfuXattrLen_ge (byteAt raw entry)
  simp only [lfuXattrEntrySize] at room long
  unfold nameDiffers
  rw [load_byteAt (by omega), load_byteAt (by omega)]
  simp only [Option.bind_eq_bind, Option.bind_some]
  split
  · rename_i other
    simp only [other, Bool.true_or]
    rfl
  · rename_i same
    simp only [Bool.or_eq_true, decide_eq_true_eq, bne_iff_ne, ne_eq, not_or, not_not] at same
    rw [loadRange_inside (by simp only [lfuXattrEntrySize]; omega)]
    simp [same]

/-- No load of the walk is outside the record, and its rounds do not run out. -/
theorem osdRawXattrLoop_inside {raw : Bytes} {isize : Nat} (sized : raw.length = isize)
    (first : Nat) (index : UInt8) (name : Bytes) {fuel entry : Nat} (left : 0 < fuel)
    (enough : isize < entry + lfuXattrEntrySize * fuel)
    : osdRawXattrLoop raw isize first index name fuel entry
        = some (Osd.osdRawXattrLoop raw isize first index name fuel entry) := by
  induction fuel generalizing entry with
  | zero => omega
  | succ fuel ih =>
      unfold osdRawXattrLoop Osd.osdRawXattrLoop
      split
      · rfl
      · rename_i room
        have long := lfuXattrLen_ge (byteAt raw entry)
        rw [nameDiffers_inside sized (by omega)]
        simp only [lfuXattrEntrySize] at *
        rw [lfuLe32_inside (by omega), lfuLe32_inside (by omega), lfuLe32_inside (by omega),
          lfuLe16_inside (by omega), load_byteAt (by omega)]
        simp only [Option.bind_eq_bind, Option.bind_some, ih (show 0 < fuel by omega)
          (show isize < entry + lfuXattrLen (byteAt raw entry) + 16 * fuel by omega)]
        split
        · rfl
        · split
          · rfl
          · split
            · rfl
            · split <;> rfl

theorem osdRawXattr_inside (sb : SuperBlock) {raw : Bytes}
    (sized : raw.length = sb.inodeSize.toNat) (whole : sb.inodeSize ≠ 129)
    (index : UInt8) (name : Bytes)
    : osdRawXattr sb raw index name = some (Osd.osdRawXattr sb raw index name) := by
  have whole : sb.inodeSize.toNat ≠ 129 := fun same => whole (UInt32.toNat_inj.mp same)
  unfold osdRawXattr Osd.osdRawXattr
  by_cases large : sb.inodeSize.toNat ≤ goodOldInodeSize
  · rw [if_pos large, if_pos large]
  rw [if_neg large, if_neg large]
  have goodOld : goodOldInodeSize = 128 := rfl
  rw [lfuLe16_inside (by omega)]
  simp only [Option.bind_eq_bind, Option.bind_some]
  generalize Lustre.lfuLe16 raw goodOldInodeSize = extra
  by_cases misplaced : (extra &&& 3 != 0
      || goodOldInodeSize + extra.toNat + 4 > sb.inodeSize.toNat) = true
  · rw [if_pos misplaced, if_pos misplaced]
    rfl
  rw [if_neg misplaced, if_neg misplaced]
  simp only [Bool.or_eq_true, decide_eq_true_eq, not_or] at misplaced
  rw [lfuLe32_inside (by omega)]
  simp only [Option.bind_some]
  rw [osdRawXattrLoop_inside sized _ index name (by omega)
    (by simp only [lfuXattrEntrySize]; omega), apply_ite some]
  rfl

end Checked

/-- The lookup in a record of any content. Every load is inside the record and the walk ends
within its rounds; a value it answers with is inside the record and is that of the first
entry of this index and name; and in a well-formed area it answers exactly for the stored
attributes, with the bytes of the first one so named.
-/
theorem raw_xattr_exact (sb : SuperBlock) (raw : Bytes)
    (sized : raw.length = sb.inodeSize.toNat) (whole : sb.inodeSize ≠ 129)
    (index : UInt8) (name : Bytes)
    : Checked.osdRawXattr sb raw index name = some (osdRawXattr sb raw index name)
      ∧ (∀ off len, osdRawXattr sb raw index name = .ok (off, len) →
          off + len ≤ raw.length
          ∧ ∃ entry,
              (entryChain raw sb.inodeSize.toNat (firstEntry raw)).find?
                  (entryNamed raw sb.inodeSize.toNat index name)
                = some entry
              ∧ off = valueStart raw (firstEntry raw) entry
              ∧ len = valueSize raw entry)
      ∧ ∀ attrs, XattrArea sb raw attrs →
          ((∃ off len, osdRawXattr sb raw index name = .ok (off, len))
            ↔ ∃ value, ⟨index, name, value⟩ ∈ attrs)
          ∧ ∀ value,
              (∃ off len,
                osdRawXattr sb raw index name = .ok (off, len) ∧ window raw off len = value)
              ↔ attrs.find? (Xattr.named index name) = some ⟨index, name, value⟩ := by
  refine ⟨Checked.osdRawXattr_inside sb sized whole index name, fun off len found => ?_,
    fun attrs area => ?_⟩
  · obtain ⟨_, entry, first, inside, rfl, rfl⟩ := (osdRawXattr_ok_iff ..).mp found
    exact ⟨sized ▸ inside.fits, entry, first, rfl, rfl⟩
  · exact ⟨area.found_iff index name, area.lookup_iff index name⟩

def smallSuperBlock : SuperBlock where
  inodeSize := 256
  sBlocksize := 4096
  sBlocksizeBits := 12
  inodesPerGroup := 32
  bits_valid := SuperBlock.bits_of_4k

/-- A record with a 32-byte extension and the attribute "lma", whose value of four bytes is
at the end.
-/
def recordOfLma : Bytes :=
  List.replicate 128 0 ++ [32, 0] ++ List.replicate 30 0 ++ [0x00, 0x00, 0x02, 0xEA]
    ++ [3, 4, 88, 0, 0, 0, 0, 0, 4, 0, 0, 0, 0, 0, 0, 0] ++ lmaName ++ [0]
    ++ List.replicate 68 0 ++ [1, 2, 3, 4]

theorem raw_xattr_exact_lma
    : ∃ off len,
        osdRawXattr smallSuperBlock recordOfLma lfuXattrIndexTrusted lmaName = .ok (off, len)
        ∧ window recordOfLma off len = [1, 2, 3, 4] := by
  have stores : EntryStores recordOfLma 256 164 164 ⟨4, lmaName, [1, 2, 3, 4]⟩ :=
    {
      notLast := by decide
      index := by decide
      nameLen := by decide
      nameInside := by decide
      name := by decide
      valueInside := by decide
      value := by decide
    }
  have area : XattrArea smallSuperBlock recordOfLma [⟨4, lmaName, [1, 2, 3, 4]⟩] :=
    {
      large := by decide
      aligned := by decide
      inside := by decide
      magic := by decide
      stored := ⟨stores, by decide, by decide⟩
    }
  have sized : recordOfLma.length = smallSuperBlock.inodeSize.toNat := by
    simp only [recordOfLma, List.length_append, List.length_replicate]
    rfl
  exact ((raw_xattr_exact smallSuperBlock recordOfLma sized (by decide)
    lfuXattrIndexTrusted lmaName).2.2 _ area).2 [1, 2, 3, 4] |>.mpr rfl

end LfuScan.Osd
