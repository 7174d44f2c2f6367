import Mathlib.Algebra.Group.Nat.Defs
import Mathlib.Data.List.GetD
import LfuScan.Lustre.OnDisk

/-! `trusted.lov` on disk: the structures of a layout, and the bytes they are written as. A
composite layout may put its components anywhere after its table.
-/

namespace LfuScan.Lustre

def le16 (v : UInt16) : Bytes := [v.toUInt8, (v >>> 8).toUInt8]

def le32 (v : UInt32) : Bytes := le16 v.toUInt16 ++ le16 (v >>> 16).toUInt16

def le64 (v : UInt64) : Bytes := le32 v.toUInt32 ++ le32 (v >>> 32).toUInt32

@[simp] theorem length_le16 (v : UInt16) : (le16 v).length = 2 := rfl
@[simp] theorem length_le32 (v : UInt32) : (le32 v).length = 4 := rfl
@[simp] theorem length_le64 (v : UInt64) : (le64 v).length = 8 := rfl

/-- Two halves of a number are put together again. -/
theorem join_halves (low high : Nat) (i : Nat) (small : low < 2 ^ i)
    : low ||| high <<< i = high * 2 ^ i + low := by
  rw [Nat.or_comm, Nat.shiftLeft_eq, Nat.mul_comm, ← Nat.two_pow_add_eq_or_of_lt small]

theorem join_le16 (v : UInt16)
    : v.toUInt8.toUInt16 ||| (v >>> 8).toUInt8.toUInt16 <<< 8 = v := by
  have top := v.toNat_lt
  rw [← UInt16.toNat_inj]
  simp only [UInt16.toNat_or, UInt16.toNat_shiftLeft, UInt16.toNat_shiftRight,
    UInt8.toNat_toUInt16, UInt16.toNat_toUInt8]
  rw [show (8 : UInt16).toNat % 16 = 8 from rfl, Nat.shiftRight_eq_div_pow,
    Nat.mod_eq_of_lt (a := v.toNat / 2 ^ 8) (by omega), Nat.mod_eq_of_lt (a := _ <<< 8),
    join_halves _ _ 8 (Nat.mod_lt _ (by decide))]
  · omega
  · rw [Nat.shiftLeft_eq]
    omega

theorem join_le32 (v : UInt32)
    : v.toUInt16.toUInt32 ||| (v >>> 16).toUInt16.toUInt32 <<< 16 = v := by
  have top := v.toNat_lt
  rw [← UInt32.toNat_inj]
  simp only [UInt32.toNat_or, UInt32.toNat_shiftLeft, UInt32.toNat_shiftRight,
    UInt16.toNat_toUInt32, UInt32.toNat_toUInt16]
  rw [show (16 : UInt32).toNat % 32 = 16 from rfl, Nat.shiftRight_eq_div_pow,
    Nat.mod_eq_of_lt (a := v.toNat / 2 ^ 16) (by omega), Nat.mod_eq_of_lt (a := _ <<< 16),
    join_halves _ _ 16 (Nat.mod_lt _ (by decide))]
  · omega
  · rw [Nat.shiftLeft_eq]
    omega

/-- A load after the bytes in front of it. -/
theorem byteAt_skip {front : Bytes} {n : Nat} (size : front.length = n) (back : Bytes)
    (off : Nat)
    : byteAt (front ++ back) (n + off) = byteAt back off := by
  rw [← size, byteAt, byteAt, List.getD_append_right _ _ _ _ (Nat.le_add_right _ _),
    Nat.add_sub_cancel_left]

theorem lfuLe16_skip {front : Bytes} {n : Nat} (size : front.length = n) (back : Bytes)
    (off : Nat)
    : lfuLe16 (front ++ back) (n + off) = lfuLe16 back off := by
  rw [lfuLe16, lfuLe16, Nat.add_assoc, byteAt_skip size, byteAt_skip size]

theorem lfuLe32_skip {front : Bytes} {n : Nat} (size : front.length = n) (back : Bytes)
    (off : Nat)
    : lfuLe32 (front ++ back) (n + off) = lfuLe32 back off := by
  rw [lfuLe32, lfuLe32, Nat.add_assoc, lfuLe16_skip size, lfuLe16_skip size]

theorem lfuLe16_head (v : UInt16) (back : Bytes) : lfuLe16 (le16 v ++ back) 0 = v :=
  join_le16 v

theorem lfuLe32_head (v : UInt32) (back : Bytes) : lfuLe32 (le32 v ++ back) 0 = v := by
  have low : lfuLe16 (le32 v ++ back) 0 = v.toUInt16 := join_le16 _
  have high : lfuLe16 (le32 v ++ back) 2 = (v >>> 16).toUInt16 := join_le16 _
  rw [lfuLe32, low, high, join_le32]

/-- A load inside a part of the bytes. -/
theorem byteAt_window (b : Bytes) {start n off : Nat} (inside : off < n)
    : byteAt ((b.drop start).take n) off = byteAt b (start + off) := by
  simp [byteAt, List.getD_eq_getElem?_getD, inside]

theorem lfuLe16_window (b : Bytes) {start n off : Nat} (inside : off + 1 < n)
    : lfuLe16 ((b.drop start).take n) off = lfuLe16 b (start + off) := by
  rw [lfuLe16, lfuLe16, byteAt_window b (Nat.lt_of_succ_lt inside), byteAt_window b inside,
    Nat.add_assoc]

theorem lfuLe32_window (b : Bytes) {start n off : Nat} (inside : off + 3 < n)
    : lfuLe32 ((b.drop start).take n) off = lfuLe32 b (start + off) := by
  rw [lfuLe32, lfuLe32, lfuLe16_window b (by omega), lfuLe16_window b (by omega),
    Nat.add_assoc]

-----------------------------------------------------------------------------------------
-- The structures
-----------------------------------------------------------------------------------------

/-- `struct lov_ost_data_v1`: one object of a component. -/
structure LovOstDataV1 where
  ostOi : Vector UInt8 16 := Vector.replicate 16 0
  ostGen : UInt32 := 0
  ostIdx : UInt32
deriving DecidableEq, Repr

def LovOstDataV1.bytes (o : LovOstDataV1) : Bytes :=
  o.ostOi.toList ++ (le32 o.ostGen ++ le32 o.ostIdx)

/-- The headers that object entries follow. -/
inductive LovMdsMagic
  | v1
  | v3
  | specific
deriving DecidableEq, Repr

def LovMdsMagic.code : LovMdsMagic → UInt32
  | .v1 => lovMagicV1
  | .v3 => lovMagicV3
  | .specific => lovMagicSpecific

def LovMdsMagic.headerSize : LovMdsMagic → Nat
  | .v1 => lovMdsMdV1Size
  | .v3 | .specific => lovMdsMdV3Size

/-- `struct lov_mds_md_v1` and `struct lov_mds_md_v3`: a plain layout or one component. The
pool name is a C string in 16 bytes, and only v3 writes it. A component that has not been
instantiated may say how many stripes it will have and come without their objects.
-/
structure LovMdsMd where
  magic : LovMdsMagic
  pattern : UInt32
  oi : Vector UInt8 16 := Vector.replicate 16 0
  stripeSize : UInt32
  stripeCount : UInt16
  layoutGen : UInt16 := 0
  poolName : Vector UInt8 15 := Vector.replicate 15 0
  objects : List LovOstDataV1
deriving DecidableEq

namespace LovMdsMd

/-- The pool field, where the header has one. -/
def poolBytes (md : LovMdsMd) : Bytes :=
  match md.magic with
  | .v1 => []
  | .v3 | .specific => md.poolName.toList ++ [0]

/-- The pool name as a string, empty where there is none. -/
def pool (md : LovMdsMd) : Bytes := md.poolBytes.takeWhile (· != 0)

def bytes (md : LovMdsMd) : Bytes :=
  le32 md.magic.code ++ (le32 md.pattern ++ (md.oi.toList ++ (le32 md.stripeSize
    ++ (le16 md.stripeCount ++ (le16 md.layoutGen
    ++ (md.poolBytes ++ md.objects.flatMap LovOstDataV1.bytes))))))

/-- A component that is not on an MDT. -/
def isData (md : LovMdsMd) : Bool := md.pattern &&& lovPatternMdt == 0

def isReleased (md : LovMdsMd) : Bool := md.pattern &&& lovPatternFReleased != 0

/-- Every object is there, unless the component is released or on an MDT. -/
def Full (md : LovMdsMd) : Prop :=
  md.isData = true → md.isReleased = false → md.objects.length = md.stripeCount.toNat

/-- The stripes a component holds on OSTs: those it has an object for, and all that its
header counts once its objects have been released.
-/
def stripes (md : LovMdsMd) : Nat :=
  if md.isData then
    if md.isReleased then md.stripeCount.toNat else min md.stripeCount.toNat md.objects.length
  else
    0

/-- A component that holds OST stripes. -/
def holdsStripes (md : LovMdsMd) : Bool := 0 < md.stripes

end LovMdsMd

/-- `struct lov_comp_md_entry_v1`: where one component of a composite layout is. -/
structure LovCompMdEntryV1 where
  id : UInt32 := 0
  flags : UInt32 := 0
  extentStart : UInt64 := 0
  extentEnd : UInt64 := 0
  offset : UInt32
  size : UInt32
  layoutGen : UInt32 := 0
  timeAndId : UInt64 := 0
  dstripeCount : UInt8 := 0
  cstripeCount : UInt8 := 0
  comprType : UInt8 := 0
  comprBits : UInt8 := 0
deriving DecidableEq, Repr

def LovCompMdEntryV1.bytes (entry : LovCompMdEntryV1) : Bytes :=
  le32 entry.id ++ (le32 entry.flags ++ (le64 entry.extentStart ++ (le64 entry.extentEnd
    ++ (le32 entry.offset ++ (le32 entry.size ++ (le32 entry.layoutGen
    ++ (le64 entry.timeAndId
    ++ [entry.dstripeCount, entry.cstripeCount, entry.comprType, entry.comprBits])))))))

/-- The bytes an entry of the table points at. -/
def componentBytes (component : Option LovMdsMd) : Bytes := component.elim [] LovMdsMd.bytes

/-- `struct lov_comp_md_v1` with its table, each entry next to the component it points at. The
entry of a component that has not been instantiated may be empty and point at none.
-/
structure LovCompMdV1 where
  size : UInt32 := 0
  layoutGen : UInt32 := 0
  flags : UInt16 := 0
  mirrorCount : UInt16
  ecCount : UInt8 := 0
  padding : Vector UInt8 13 := Vector.replicate 13 0
  entries : List (LovCompMdEntryV1 × Option LovMdsMd)
  few : entries.length < 2 ^ 16
deriving DecidableEq

/-- The fixed part of a composite layout. -/
def LovCompMdV1.header (md : LovCompMdV1) : Bytes :=
  le32 lovMagicCompV1 ++ (le32 md.size ++ (le32 md.layoutGen ++ (le16 md.flags
    ++ (le16 (UInt16.ofNat md.entries.length) ++ (le16 md.mirrorCount
    ++ (md.ecCount :: md.padding.toList))))))

/-- The component of an entry is at the offset and has the size the entry says. An empty entry
has no size, and may point anywhere.
-/
def Stored (b : Bytes) (entry : LovCompMdEntryV1 × Option LovMdsMd) : Prop :=
  entry.1.size.toNat = (componentBytes entry.2).length
  ∧ ∀ md, entry.2 = some md
      → (b.drop entry.1.offset.toNat).take entry.1.size.toNat = md.bytes

/-- The bytes hold a composite layout: its header, its table, and every component where its
entry says.
-/
structure LovCompMdV1.OnDisk (md : LovCompMdV1) (b : Bytes) : Prop where
  header : b.take lovCompMdV1Size = md.header
  table :
    (b.drop lovCompMdV1Size).take (lovCompMdEntryV1Size * md.entries.length)
      = md.entries.flatMap (·.1.bytes)
  components : ∀ entry ∈ md.entries, Stored b entry

/-- A layout with objects. -/
inductive LovLayout
  | plain (md : LovMdsMd)
  | composite (md : LovCompMdV1)

namespace LovLayout

def components : LovLayout → List LovMdsMd
  | .plain md => [md]
  | .composite md => md.entries.filterMap (·.2)

/-- How many components the layout counts, those without a header included. -/
def count : LovLayout → Nat
  | .plain _ => 1
  | .composite md => md.entries.length

/-- A composite layout stores one less than its mirrors. -/
def mirrors : LovLayout → Nat
  | .plain _ => 1
  | .composite md => md.mirrorCount.toNat + 1

def OnDisk : LovLayout → Bytes → Prop
  | .plain md, b => b = md.bytes
  | .composite md, b => md.OnDisk b

end LovLayout

-----------------------------------------------------------------------------------------
-- Reading them back
-----------------------------------------------------------------------------------------

@[simp] theorem LovOstDataV1.length_bytes (o : LovOstDataV1)
    : o.bytes.length = lovOstDataV1Size := by
  simp [LovOstDataV1.bytes, lovOstDataV1Size]

theorem length_objects (objects : List LovOstDataV1)
    : (objects.flatMap LovOstDataV1.bytes).length = lovOstDataV1Size * objects.length := by
  induction objects with
  | nil => rfl
  | cons o rest ih =>
      rw [List.flatMap_cons, List.length_append, LovOstDataV1.length_bytes, ih,
        List.length_cons, Nat.mul_succ, Nat.add_comm]

/-- The index is the last field of an object. -/
theorem lfuLe32_ostIdx (o : LovOstDataV1) (back : Bytes)
    : lfuLe32 (o.bytes ++ back) 20 = o.ostIdx := by
  rw [LovOstDataV1.bytes, List.append_assoc, List.append_assoc]
  exact (lfuLe32_skip (Vector.length_toList) _ 4).trans
    ((lfuLe32_skip (length_le32 _) _ 0).trans (lfuLe32_head _ _))

theorem lfuLe32_object (objects : List LovOstDataV1) (s : Nat) (inside : s < objects.length)
    : lfuLe32 (objects.flatMap LovOstDataV1.bytes) (s * lovOstDataV1Size + 20)
      = objects[s].ostIdx := by
  induction objects generalizing s with
  | nil => exact absurd inside (Nat.not_lt_zero s)
  | cons o rest ih =>
      rw [List.flatMap_cons]
      cases s with
      | zero => exact lfuLe32_ostIdx o _
      | succ s =>
          rw [Nat.succ_mul, Nat.add_right_comm, Nat.add_comm _ lovOstDataV1Size,
            lfuLe32_skip o.length_bytes, ih s (Nat.lt_of_succ_lt_succ inside),
            List.getElem_cons_succ]

namespace LovMdsMd

variable (md : LovMdsMd)

theorem length_poolBytes : md.poolBytes.length = md.magic.headerSize - lovMdsMdV1Size := by
  unfold poolBytes LovMdsMagic.headerSize
  cases md.magic with
  | v1 => rfl
  | v3 | specific => simp [lovMdsMdV1Size, lovMdsMdV3Size]

theorem length_bytes
    : md.bytes.length = md.magic.headerSize + lovOstDataV1Size * md.objects.length := by
  have pool := md.length_poolBytes
  have known : lovMdsMdV1Size ≤ md.magic.headerSize := by cases md.magic <;> decide
  simp only [bytes, List.length_append, length_le32, length_le16, Vector.length_toList, pool,
    length_objects, lovMdsMdV1Size] at known ⊢
  omega

theorem lfuLe32_magic : lfuLe32 md.bytes 0 = md.magic.code := lfuLe32_head _ _

theorem lfuLe32_pattern : lfuLe32 md.bytes 4 = md.pattern :=
  (lfuLe32_skip (length_le32 _) _ 0).trans (lfuLe32_head _ _)

theorem lfuLe32_stripeSize : lfuLe32 md.bytes 24 = md.stripeSize :=
  (lfuLe32_skip (length_le32 _) _ 20).trans <|
    (lfuLe32_skip (length_le32 _) _ 16).trans <|
      (lfuLe32_skip Vector.length_toList _ 0).trans (lfuLe32_head _ _)

theorem lfuLe16_stripeCount : lfuLe16 md.bytes 28 = md.stripeCount :=
  (lfuLe16_skip (length_le32 _) _ 24).trans <|
    (lfuLe16_skip (length_le32 _) _ 20).trans <|
      (lfuLe16_skip Vector.length_toList _ 4).trans <|
        (lfuLe16_skip (length_le32 _) _ 0).trans (lfuLe16_head _ _)

/-- What comes after the fixed fields of a component. -/
theorem bytes_split
    : ∃ fixed : Bytes,
        fixed.length = lovMdsMdV1Size
        ∧ md.bytes = fixed ++ (md.poolBytes ++ md.objects.flatMap LovOstDataV1.bytes) := by
  refine ⟨le32 md.magic.code ++ (le32 md.pattern ++ (md.oi.toList ++ (le32 md.stripeSize
    ++ (le16 md.stripeCount ++ le16 md.layoutGen)))), ?_, ?_⟩
  · simp [lovMdsMdV1Size]
  · simp [bytes]

theorem byteAt_pool (i : Nat) (inside : i < md.poolBytes.length)
    : byteAt md.bytes (lovMdsMdV1Size + i) = md.poolBytes.getD i 0 := by
  obtain ⟨fixed, size, split⟩ := md.bytes_split
  rw [split, byteAt_skip size, byteAt, List.getD_append _ _ _ _ inside]

/-- The objects, loaded from where the header ends. -/
theorem lfuLe32_objects (off : Nat)
    : lfuLe32 md.bytes (md.magic.headerSize + off)
      = lfuLe32 (md.objects.flatMap LovOstDataV1.bytes) off := by
  obtain ⟨fixed, size, split⟩ := md.bytes_split
  have known : lovMdsMdV1Size ≤ md.magic.headerSize := by cases md.magic <;> decide
  have header : (fixed ++ md.poolBytes).length = md.magic.headerSize := by
    rw [List.length_append, size, length_poolBytes]
    omega
  rw [split, ← List.append_assoc, lfuLe32_skip header]

end LovMdsMd

@[simp] theorem LovCompMdEntryV1.length_bytes (entry : LovCompMdEntryV1)
    : entry.bytes.length = lovCompMdEntryV1Size := rfl

theorem LovCompMdEntryV1.lfuLe32_flags (entry : LovCompMdEntryV1)
    : lfuLe32 entry.bytes 4 = entry.flags :=
  (lfuLe32_skip (length_le32 _) _ 0).trans (lfuLe32_head _ _)

theorem LovCompMdEntryV1.lfuLe32_offset (entry : LovCompMdEntryV1)
    : lfuLe32 entry.bytes 24 = entry.offset :=
  (lfuLe32_skip (length_le32 _) _ 20).trans <|
    (lfuLe32_skip (length_le32 _) _ 16).trans <|
      (lfuLe32_skip (length_le64 _) _ 8).trans <|
        (lfuLe32_skip (length_le64 _) _ 0).trans (lfuLe32_head _ _)

theorem LovCompMdEntryV1.lfuLe32_size (entry : LovCompMdEntryV1)
    : lfuLe32 entry.bytes 28 = entry.size :=
  (lfuLe32_skip (length_le32 _) _ 24).trans <|
    (lfuLe32_skip (length_le32 _) _ 20).trans <|
      (lfuLe32_skip (length_le64 _) _ 12).trans <|
        (lfuLe32_skip (length_le64 _) _ 4).trans <|
          (lfuLe32_skip (length_le32 _) _ 0).trans (lfuLe32_head _ _)

/-- Components one after the other from offset `off` on, with the entries that find them. -/
def placed (off : Nat)
    : List (Option LovMdsMd) → List (LovCompMdEntryV1 × Option LovMdsMd)
  | [] => []
  | md :: rest =>
      ({ offset := UInt32.ofNat off, size := UInt32.ofNat (componentBytes md).length }, md)
        :: placed (off + (componentBytes md).length) rest

/-- A composite layout without gaps. -/
def LovCompMdV1.bytes (md : LovCompMdV1) : Bytes :=
  md.header ++ (md.entries.flatMap (·.1.bytes)
    ++ md.entries.flatMap fun entry => componentBytes entry.2)

theorem length_table (entries : List (LovCompMdEntryV1 × Option LovMdsMd))
    : (entries.flatMap (·.1.bytes)).length = lovCompMdEntryV1Size * entries.length := by
  induction entries with
  | nil => rfl
  | cons entry rest ih =>
      rw [List.flatMap_cons, List.length_append, LovCompMdEntryV1.length_bytes, ih,
        List.length_cons, Nat.mul_succ, Nat.add_comm]

@[simp] theorem LovCompMdV1.length_header (md : LovCompMdV1)
    : md.header.length = lovCompMdV1Size := by
  simp [LovCompMdV1.header, lovCompMdV1Size]

/-- Every component is found where it was placed. -/
theorem placed_found (front : Bytes) (mds : List (Option LovMdsMd))
    (fits : front.length + (mds.flatMap componentBytes).length < 2 ^ 32)
    : ∀ entry ∈ placed front.length mds, Stored (front ++ mds.flatMap componentBytes) entry := by
  induction mds generalizing front with
  | nil =>
      intro entry member
      cases member
  | cons md rest ih =>
      intro entry member
      rw [List.flatMap_cons, List.length_append] at fits
      rcases List.mem_cons.mp member with rfl | later
      · have offset : (UInt32.ofNat front.length).toNat = front.length :=
          UInt32.toNat_ofNat_of_lt' (by simp only [UInt32.size]; omega)
        have size : (UInt32.ofNat (componentBytes md).length).toNat
            = (componentBytes md).length :=
          UInt32.toNat_ofNat_of_lt' (by simp only [UInt32.size]; omega)
        refine ⟨size, ?_⟩
        rintro component rfl
        rw [offset, size, List.flatMap_cons, List.drop_left, List.take_left]
        rfl
      · rw [List.flatMap_cons, ← List.append_assoc]
        rw [← List.length_append] at later
        exact ih (front ++ componentBytes md) (by rw [List.length_append]; omega) entry later

theorem placed_components (off : Nat) (mds : List (Option LovMdsMd))
    : (placed off mds).map (·.2) = mds := by
  induction mds generalizing off with
  | nil => rfl
  | cons md rest ih => rw [placed, List.map_cons, ih]

/-- A layout whose components follow each other is on disk as it is written. -/
theorem LovCompMdV1.onDisk_bytes (md : LovCompMdV1) (mds : List (Option LovMdsMd))
    (order : md.entries
      = placed (lovCompMdV1Size + lovCompMdEntryV1Size * mds.length) mds)
    (fits : md.bytes.length < 2 ^ 32)
    : md.OnDisk md.bytes := by
  have components : (md.entries.flatMap fun entry => componentBytes entry.2)
      = mds.flatMap componentBytes := by
    have same := placed_components (lovCompMdV1Size + lovCompMdEntryV1Size * mds.length) mds
    conv_rhs => rw [← same]
    rw [order, List.flatMap_map]
  have count : md.entries.length = mds.length := by
    have same := congrArg List.length (placed_components
      (lovCompMdV1Size + lovCompMdEntryV1Size * mds.length) mds)
    rw [List.length_map] at same
    rw [order, same]
  refine ⟨List.take_left' md.length_header, ?_, ?_⟩
  · rw [LovCompMdV1.bytes, List.drop_left' md.length_header]
    exact List.take_left' (length_table _)
  · have front : (md.header ++ md.entries.flatMap (·.1.bytes)).length
        = lovCompMdV1Size + lovCompMdEntryV1Size * mds.length := by
      rw [List.length_append, length_header, length_table, count]
    have whole : md.bytes
        = (md.header ++ md.entries.flatMap (·.1.bytes)) ++ mds.flatMap componentBytes := by
      rw [LovCompMdV1.bytes, components, List.append_assoc]
    intro entry member
    rw [whole, List.length_append] at fits
    rw [whole]
    refine placed_found _ mds fits entry ?_
    rw [front, ← order]
    exact member

end LfuScan.Lustre
