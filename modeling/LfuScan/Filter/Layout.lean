import Mathlib.Algebra.Ring.Nat
import Mathlib.Data.List.TakeWhile
import LfuScan.Lustre.Layout
import LfuScan.Filter.Walkers

/-! What the decoder makes of a well-formed layout, and which components the search for an
OST looks into. A layout is the fold of its components, so one lemma for a component and one
induction for the list carry each field.
-/

namespace LfuScan.Filter

open LfuScan.Lustre

-----------------------------------------------------------------------------------------
-- One component
-----------------------------------------------------------------------------------------

theorem lovHeaderSize_magic (magic : LovMdsMagic)
    : lovHeaderSize? magic.code = some magic.headerSize := by
  cases magic <;> decide

theorem lfuDecodeLovOne_known {t1 : Tier1Lov} {c : Bytes} {hdr : Nat}
    (known : lovHeaderSize? (lfuLe32 c 0) = some hdr) (fits : hdr ≤ c.length)
    : lfuDecodeLovOne t1 c = addComponent t1 c hdr := by
  have large := lovHeaderSize_ge known
  have way := lfuDecodeLovOne_exit t1 c
  generalize lfuDecodeLovOne t1 c = after at way ⊢
  cases way with
  | short cut => omega
  | strange unknown | foreign unknown =>
      rw [unknown] at known
      cases known
  | cut other same cut =>
      rw [same] at known
      cases known
      omega
  | data other same fits =>
      rw [same] at known
      cases known
      rfl

section Component

variable (md : LovMdsMd) (t1 : Tier1Lov)

theorem lovHeaderSize_bytes : lovHeaderSize? (lfuLe32 md.bytes 0) = some md.magic.headerSize := by
  rw [md.lfuLe32_magic, lovHeaderSize_magic]

theorem le_length_component : lovMdsMdV1Size ≤ md.bytes.length := by
  rw [md.length_bytes]
  exact Nat.le_add_right_of_le (lovHeaderSize_ge (lovHeaderSize_magic md.magic))

theorem lfuDecodeLovOne_bytes
    : lfuDecodeLovOne t1 md.bytes = addComponent t1 md.bytes md.magic.headerSize :=
  lfuDecodeLovOne_known (lovHeaderSize_bytes md) (by rw [md.length_bytes]; omega)

/-- The count of a component that is not on an MDT is cut to the objects that are there,
unless they were released.
-/
theorem countedStripes_bytes (data : md.isData)
    : (countedStripes md.bytes md.magic.headerSize).toNat = md.stripes := by
  have top := md.stripeCount.toNat_lt
  unfold countedStripes LovMdsMd.stripes
  rw [md.lfuLe16_stripeCount, md.lfuLe32_pattern, md.length_bytes, if_pos data]
  dsimp only
  by_cases released : md.isReleased
  · rw [if_pos released, if_neg]
    intro cut
    rw [Bool.and_eq_true, beq_iff_eq] at cut
    simp [LovMdsMd.isReleased, cut.2] at released
  · have kept : (md.pattern &&& lovPatternFReleased == 0) = true := by
      simpa [LovMdsMd.isReleased] using released
    rw [if_neg released, kept, Bool.and_true]
    split
    · rename_i cut
      have cut := of_decide_eq_true cut
      simp only [lovOstDataV1Size] at cut
      rw [Nat.add_sub_cancel_left, Nat.mul_div_cancel_left _ (by decide), UInt16.toNat_ofNat',
        Nat.mod_eq_of_lt (by omega), Nat.min_eq_right (by omega)]
    · rename_i whole
      have whole := of_decide_eq_false (Bool.eq_false_iff.mpr whole)
      simp only [lovOstDataV1Size] at whole
      rw [Nat.min_eq_left (by omega)]

theorem decoded_pattern : (lfuDecodeLovOne t1 md.bytes).pattern = t1.pattern ||| md.pattern := by
  rw [lfuDecodeLovOne_bytes, addComponent, md.lfuLe32_pattern]

theorem decoded_stripeSize
    : (lfuDecodeLovOne t1 md.bytes).stripeSize
      = if t1.stripeSize == 0 then md.stripeSize else t1.stripeSize := by
  rw [lfuDecodeLovOne_bytes, addComponent, md.lfuLe32_stripeSize]

theorem stripes_le : md.stripes ≤ 65535 := by
  have top := md.stripeCount.toNat_lt
  unfold LovMdsMd.stripes
  split
  · split <;> omega
  · omega

theorem decoded_stripeCount (room : t1.stripeCount.toNat + 65535 < 2 ^ 32)
    : (lfuDecodeLovOne t1 md.bytes).stripeCount.toNat = t1.stripeCount.toNat + md.stripes := by
  have most := stripes_le md
  rw [lfuDecodeLovOne_bytes, addComponent, md.lfuLe32_pattern]
  dsimp only
  by_cases data : md.isData
  · rw [if_pos (by exact data), UInt32.toNat_add, UInt16.toNat_toUInt32,
      countedStripes_bytes md data, Nat.mod_eq_of_lt (by omega)]
  · rw [if_neg (by exact data), LovMdsMd.stripes, if_neg data, Nat.add_zero]

theorem poolName_bytes (named : md.magic ≠ .v1)
    : (poolName md.bytes).toList = md.poolBytes := by
  have field : md.poolBytes = md.poolName.toList ++ [0] := by
    unfold LovMdsMd.poolBytes
    cases kind : md.magic with
    | v1 => exact absurd kind named
    | v3 | specific => rfl
  have size : md.poolBytes.length = 16 := by simp [field]
  refine List.ext_getElem (by simp [size]) fun i inside other => ?_
  simp only [poolName, Vector.getElem_toList, Vector.getElem_ofFn]
  rw [← List.getD_eq_getElem _ 0 other]
  split
  · exact md.byteAt_pool i other
  · rename_i last
    have end_ : i = 15 := by
      simp only [lovMaxPoolName] at last
      omega
    rw [field, end_]
    simp

/-- A pool name is taken where none has been found before. -/
theorem decoded_poolText
    : (lfuDecodeLovOne t1 md.bytes).poolText
      = if t1.poolText = [] then md.pool else t1.poolText := by
  rw [lfuDecodeLovOne_bytes, addComponent]
  unfold Tier1Lov.poolText componentPool
  dsimp only
  have start := poolText_eq_nil t1
  unfold Tier1Lov.poolText at start
  by_cases kind : md.magic = .v1
  · have none_ : md.pool = [] := by rw [LovMdsMd.pool, LovMdsMd.poolBytes, kind]; rfl
    rw [kind, none_]
    simp only [LovMdsMagic.headerSize, show (lovMdsMdV1Size == lovMdsMdV3Size) = false from rfl,
      Bool.false_and, Bool.false_eq_true, if_false]
    split
    · assumption
    · rfl
  · have v3 : md.magic.headerSize = lovMdsMdV3Size := by
      cases named : md.magic with
      | v1 => exact absurd named kind
      | v3 | specific => rfl
    rw [v3, beq_self_eq_true, Bool.true_and]
    by_cases unnamed : t1.pool[0] = 0
    · rw [if_pos (beq_iff_eq.mpr unnamed), if_pos (start.mpr unnamed), poolName_bytes md kind,
        LovMdsMd.pool]
    · rw [if_neg (by simpa using unnamed), if_neg (fun empty => unnamed (start.mp empty))]

end Component

/-- What the decoder has accumulated after some components. -/
def decodeAll (t1 : Tier1Lov) (mds : List LovMdsMd) : Tier1Lov :=
  (mds.map LovMdsMd.bytes).foldl lfuDecodeLovOne t1

theorem decodeAll_cons (t1 : Tier1Lov) (md : LovMdsMd) (rest : List LovMdsMd)
    : decodeAll t1 (md :: rest) = decodeAll (lfuDecodeLovOne t1 md.bytes) rest := rfl

/-- The first name that is not empty, if there is one. -/
def firstName (names : List Bytes) : Bytes := (names.find? (· != [])).getD []

/-- The first stripe size that is not zero, if there is one. -/
def firstSize (mds : List LovMdsMd) : UInt32 :=
  ((mds.find? (·.stripeSize != 0)).map LovMdsMd.stripeSize).getD 0

/-- The stripe counts of the components that are not on an MDT. -/
def dataStripes (mds : List LovMdsMd) : Nat :=
  ((mds.filter LovMdsMd.isData).map (·.stripeCount.toNat)).sum

/-- With all their objects there, these are the stripes the components hold. -/
theorem dataStripes_full (mds : List LovMdsMd) (full : ∀ md ∈ mds, md.Full)
    : (mds.map LovMdsMd.stripes).sum = dataStripes mds := by
  induction mds with
  | nil => rfl
  | cons md rest ih =>
      have later := ih fun other member => full other (List.mem_cons_of_mem _ member)
      have first := full md List.mem_cons_self
      unfold dataStripes at later ⊢
      rw [List.map_cons, List.sum_cons, later, List.filter_cons, LovMdsMd.stripes]
      by_cases data : md.isData
      · rw [if_pos data, if_pos data, List.map_cons, List.sum_cons]
        by_cases released : md.isReleased
        · rw [if_pos released]
        · rw [if_neg released, first data (Bool.eq_false_iff.mpr released), Nat.min_self]
      · rw [if_neg data, if_neg data, Nat.zero_add]

theorem decodeAll_pattern (t1 : Tier1Lov) (mds : List LovMdsMd)
    : (decodeAll t1 mds).pattern = mds.foldl (fun bits md => bits ||| md.pattern) t1.pattern := by
  induction mds generalizing t1 with
  | nil => rfl
  | cons md rest ih => rw [decodeAll_cons, ih, decoded_pattern, List.foldl_cons]

/-- A field that a component sets where it is unset: the first component that has one does. -/
theorem decodeAll_first {β : Type} [DecidableEq β] [BEq β] [LawfulBEq β]
    (field : Tier1Lov → β) (value : LovMdsMd → β) {unset : β}
    (one : ∀ t1 md, field (lfuDecodeLovOne t1 md.bytes)
      = if field t1 = unset then value md else field t1)
    (t1 : Tier1Lov) (mds : List LovMdsMd)
    : field (decodeAll t1 mds)
      = if field t1 = unset then ((mds.map value).find? (· != unset)).getD unset
        else field t1 := by
  induction mds generalizing t1 with
  | nil =>
      show field t1 = if field t1 = unset then unset else field t1
      split
      · assumption
      · rfl
  | cons md rest ih =>
      rw [decodeAll_cons, ih, one]
      by_cases absent : field t1 = unset <;> by_cases none_ : value md = unset <;>
        simp [absent, none_]

theorem decodeAll_stripeSize (t1 : Tier1Lov) (mds : List LovMdsMd)
    : (decodeAll t1 mds).stripeSize
      = if t1.stripeSize = 0 then firstSize mds else t1.stripeSize := by
  have first : firstSize mds = ((mds.map LovMdsMd.stripeSize).find? (· != 0)).getD 0 := by
    rw [List.find?_map]
    rfl
  rw [first]
  refine decodeAll_first Tier1Lov.stripeSize LovMdsMd.stripeSize (fun t1 md => ?_) t1 mds
  simp only [decoded_stripeSize, beq_iff_eq]

theorem decodeAll_poolText (t1 : Tier1Lov) (mds : List LovMdsMd)
    : (decodeAll t1 mds).poolText
      = if t1.poolText = [] then firstName (mds.map LovMdsMd.pool) else t1.poolText :=
  decodeAll_first Tier1Lov.poolText LovMdsMd.pool (fun t1 md => decoded_poolText md t1) t1 mds

theorem decodeAll_stripeCount (t1 : Tier1Lov) (mds : List LovMdsMd)
    (room : t1.stripeCount.toNat + 65535 * mds.length < 2 ^ 32)
    : (decodeAll t1 mds).stripeCount.toNat
      = t1.stripeCount.toNat + (mds.map LovMdsMd.stripes).sum := by
  induction mds generalizing t1 with
  | nil => rfl
  | cons md rest ih =>
      have most := stripes_le md
      rw [List.length_cons, Nat.mul_succ] at room
      have one := decoded_stripeCount md t1 (Nat.lt_of_le_of_lt (by omega) room)
      rw [decodeAll_cons, ih _ (Nat.lt_of_le_of_lt (by omega) room), one, List.map_cons,
        List.sum_cons, Nat.add_assoc]

-----------------------------------------------------------------------------------------
-- The components of a layout on disk
-----------------------------------------------------------------------------------------

theorem lovComponent_entry {b : Bytes} {off : Nat} {entry : LovCompMdEntryV1} {md : LovMdsMd}
    (here : (b.drop off).take lovCompMdEntryV1Size = entry.bytes)
    (size : entry.size.toNat = md.bytes.length)
    (found : (b.drop entry.offset.toNat).take entry.size.toNat = md.bytes)
    : lovComponent? b off = some md.bytes := by
  have offset : lfuLe32 b (off + 24) = entry.offset := by
    rw [← entry.lfuLe32_offset, ← here, lfuLe32_window b (by decide)]
  have length : lfuLe32 b (off + 28) = entry.size := by
    rw [← entry.lfuLe32_size, ← here, lfuLe32_window b (by decide)]
  have positive := le_length_component md
  have inside : entry.offset.toNat + entry.size.toNat ≤ b.length := by
    have whole := congrArg List.length found
    rw [List.length_take, List.length_drop, ← size] at whole
    simp only [lovMdsMdV1Size] at positive
    omega
  unfold lovComponent?
  dsimp only
  rw [offset, length, found]
  refine if_neg fun outside => ?_
  simp only [Bool.or_eq_true, decide_eq_true_eq, beq_iff_eq, lovMdsMdV1Size] at outside positive
  omega

/-- An empty entry is passed over. -/
theorem lovComponent_empty {b : Bytes} {off : Nat} {entry : LovCompMdEntryV1}
    (here : (b.drop off).take lovCompMdEntryV1Size = entry.bytes)
    (size : entry.size.toNat = 0)
    : lovComponent? b off = none := by
  have length : lfuLe32 b (off + 28) = entry.size := by
    rw [← entry.lfuLe32_size, ← here, lfuLe32_window b (by decide)]
  unfold lovComponent?
  dsimp only
  rw [length, size]
  exact if_pos (by simp)

/-- The table names the components in order. -/
theorem tableComponents_entries (b : Bytes) (off : Nat)
    (entries : List (LovCompMdEntryV1 × Option LovMdsMd))
    (table : (b.drop off).take (lovCompMdEntryV1Size * entries.length)
      = entries.flatMap (·.1.bytes))
    (components : ∀ entry ∈ entries, Stored b entry)
    : tableComponents b entries.length off
      = (entries.filterMap (·.2)).map LovMdsMd.bytes := by
  induction entries generalizing off with
  | nil => rfl
  | cons entry rest ih =>
      rw [List.length_cons, Nat.mul_succ, Nat.add_comm, List.take_add, List.drop_drop,
        List.flatMap_cons] at table
      have whole := congrArg List.length table
      simp only [List.length_append, List.length_take, List.length_drop, length_table,
        LovCompMdEntryV1.length_bytes] at whole
      obtain ⟨here, later⟩ := List.append_inj table (by
        rw [LovCompMdEntryV1.length_bytes, List.length_take, List.length_drop]
        omega)
      obtain ⟨size, found⟩ := components entry List.mem_cons_self
      rw [List.length_cons, tableComponents,
        if_neg (by simp only [lovCompMdEntryV1Size] at *; omega),
        ih _ later fun other member => components other (List.mem_cons_of_mem _ member)]
      rcases entry with ⟨entry, none | md⟩
      · rw [lovComponent_empty here size]
        rfl
      · rw [lovComponent_entry here size (found md rfl)]
        rfl

theorem header_fields {md : LovCompMdV1} {b : Bytes} (header : b.take lovCompMdV1Size = md.header)
    : lfuLe32 b 0 = lovMagicCompV1
      ∧ (lfuLe16 b 14).toNat = md.entries.length
      ∧ lfuLe16 b 16 = md.mirrorCount
      ∧ lovCompMdV1Size ≤ b.length := by
  have read32 : lfuLe32 b 0 = lfuLe32 md.header 0 := by
    rw [← header, ← lfuLe32_window b (by decide : 0 + 3 < lovCompMdV1Size), List.drop_zero]
  have read16 (off : Nat) (inside : off + 1 < lovCompMdV1Size)
      : lfuLe16 b off = lfuLe16 md.header off := by
    rw [← header, ← List.drop_zero (l := b), lfuLe16_window _ inside, List.drop_zero,
      Nat.zero_add]
  refine ⟨read32.trans (lfuLe32_head _ _), ?_, ?_, ?_⟩
  · rw [read16 14 (by decide)]
    have count : lfuLe16 md.header 14 = UInt16.ofNat md.entries.length :=
      (lfuLe16_skip (length_le32 _) _ 10).trans <|
        (lfuLe16_skip (length_le32 _) _ 6).trans <|
          (lfuLe16_skip (length_le32 _) _ 2).trans <|
            (lfuLe16_skip (length_le16 _) _ 0).trans (lfuLe16_head _ _)
    rw [count, UInt16.toNat_ofNat', Nat.mod_eq_of_lt md.few]
  · rw [read16 16 (by decide)]
    exact (lfuLe16_skip (length_le32 _) _ 12).trans <|
      (lfuLe16_skip (length_le32 _) _ 8).trans <|
        (lfuLe16_skip (length_le32 _) _ 4).trans <|
          (lfuLe16_skip (length_le16 _) _ 2).trans <|
            (lfuLe16_skip (length_le16 _) _ 0).trans (lfuLe16_head _ _)
  · have size := congrArg List.length header
    rw [md.length_header, List.length_take] at size
    omega

theorem magic_plain (magic : LovMdsMagic) : (magic.code != lovMagicCompV1) = true := by
  cases magic <;> decide

/-- Both walkers see the components of the layout, in order. -/
theorem lovComponents_onDisk {layout : LovLayout} {b : Bytes} (disk : layout.OnDisk b)
    : lovComponents b = layout.components.map LovMdsMd.bytes := by
  cases layout with
  | plain md =>
      cases disk
      have long : ¬md.bytes.length < 4 :=
        Nat.not_lt.mpr (Nat.le_trans (by decide) (le_length_component md))
      unfold lovComponents
      rw [if_neg long, md.lfuLe32_magic, if_pos (magic_plain md.magic)]
      rfl
  | composite md =>
      obtain ⟨magic, count, _, long⟩ := header_fields disk.header
      unfold lovComponents
      rw [if_neg (by simp only [lovCompMdV1Size] at long; omega), magic,
        if_neg (by decide), if_neg (Nat.not_lt.mpr long), count,
        tableComponents_entries b _ _ disk.table disk.components]
      rfl

theorem lovStart_onDisk {layout : LovLayout} {b : Bytes} (disk : layout.OnDisk b)
    : (lovStart b).haveLov = true
      ∧ (lovStart b).compCount.toNat = layout.count
      ∧ (lovStart b).mirrorCount.toNat = layout.mirrors := by
  cases layout with
  | plain md =>
      cases disk
      have long : ¬md.bytes.length < 4 :=
        Nat.not_lt.mpr (Nat.le_trans (by decide) (le_length_component md))
      unfold lovStart
      rw [if_neg long, md.lfuLe32_magic]
      dsimp only
      rw [if_pos (magic_plain md.magic)]
      exact ⟨rfl, rfl, rfl⟩
  | composite md =>
      obtain ⟨magic, count, stored, long⟩ := header_fields disk.header
      have top := md.mirrorCount.toNat_lt
      unfold lovStart
      rw [if_neg (by simp only [lovCompMdV1Size] at long; omega), magic]
      dsimp only
      rw [if_neg (by decide), if_neg (Nat.not_lt.mpr long), stored]
      refine ⟨rfl, ?_, ?_⟩
      · rw [UInt16.toNat_toUInt32, count]
        rfl
      · rw [UInt32.toNat_add, UInt16.toNat_toUInt32]
        exact Nat.mod_eq_of_lt (by simp only [UInt32.toNat_one]; omega)

/-- The object loop from entry `s` on reads the indices of the objects that are left. -/
theorem objectEntries_objects (md : LovMdsMd) (left s : Nat)
    (whole : s + left = md.objects.length)
    : objectEntries md.bytes md.magic.headerSize left s
      = (md.objects.drop s).map LovOstDataV1.ostIdx := by
  induction left generalizing s with
  | zero =>
      have none_ : md.objects.drop s = [] := List.drop_of_length_le (Nat.le_of_eq whole.symm)
      rw [none_, objectEntries, List.map_nil]
  | succ left ih =>
      have inside : s < md.objects.length := by omega
      have fits : ¬md.magic.headerSize + s * lovOstDataV1Size + lovOstDataV1Size
          > md.bytes.length := by
        rw [md.length_bytes]
        simp only [lovOstDataV1Size]
        omega
      unfold objectEntries
      dsimp only
      rw [if_neg fits, ih (s + 1) (by omega), Nat.add_assoc, md.lfuLe32_objects,
        lfuLe32_object md.objects s inside, List.drop_eq_getElem_cons inside, List.map_cons]

theorem componentEntries_bytes (md : LovMdsMd) (full : md.Full)
    : componentEntries md.bytes
      = if md.isData && !md.isReleased then md.objects.map LovOstDataV1.ostIdx else [] := by
  have excluded : (md.pattern &&& (lovPatternMdt ||| lovPatternFReleased) != 0)
      = !(md.isData && !md.isReleased) := by
    rw [Bool.eq_iff_iff]
    simp [LovMdsMd.isData, LovMdsMd.isReleased, and_or_eq_zero, imp_iff_not_or]
  unfold componentEntries
  rw [if_neg (Nat.not_lt.mpr (le_length_component md)), lovHeaderSize_bytes, md.lfuLe32_pattern,
    md.lfuLe16_stripeCount]
  dsimp only
  rw [excluded]
  by_cases searched : md.isData && !md.isReleased
  · have whole : 0 + md.stripeCount.toNat = md.objects.length := by
      rw [Bool.and_eq_true, Bool.not_eq_true'] at searched
      rw [Nat.zero_add, full searched.1 searched.2]
    rw [searched, Bool.not_true, if_neg Bool.false_ne_true, if_pos rfl,
      objectEntries_objects md _ 0 whole, List.drop_zero]
  · rw [Bool.eq_false_iff.mpr searched, Bool.not_false, if_pos rfl, if_neg Bool.false_ne_true]

/-- An index list compares equal to the indices it names. -/
theorem lfuCmp_list {p : LfuPred} (listed : p.op = LfuOp.list.code) (index : UInt32)
    : lfuCmp p index.toUInt64 = true ↔ index ∈ p.indices := by
  unfold lfuCmp
  rw [listed, LfuOp.ofCode?_code]
  simp only [List.any_eq_true, beq_iff_eq, UInt32.toUInt64_inj, exists_eq_right]

theorem lfuLovOnOst_onDisk {layout : LovLayout} {b : Bytes} (disk : layout.OnDisk b)
    (full : ∀ md ∈ layout.components, md.Full) {p : LfuPred} (listed : p.op = LfuOp.list.code)
    : lfuLovOnOst (some b) p = true
      ↔ ∃ md ∈ layout.components,
          md.isData ∧ ¬md.isReleased ∧ ∃ o ∈ md.objects, o.ostIdx ∈ p.indices := by
  rw [lfuLovOnOst_any, lovComponents_onDisk disk, List.any_map, List.any_eq_true]
  refine exists_congr fun md => and_congr_right fun member => ?_
  rw [Function.comp_apply, componentOnOst_any, componentEntries_bytes md (full md member),
    List.any_eq_true]
  by_cases searched : md.isData && !md.isReleased
  · rw [if_pos searched]
    rw [Bool.and_eq_true, Bool.not_eq_true'] at searched
    simp [searched, lfuCmp_list listed]
  · rw [if_neg searched]
    rw [Bool.and_eq_true, Bool.not_eq_true', not_and, Bool.not_eq_false] at searched
    simp only [List.not_mem_nil, false_and, exists_false, false_iff, not_and]
    exact fun data kept => absurd (searched data) kept

-----------------------------------------------------------------------------------------
-- The decoder on a whole layout
-----------------------------------------------------------------------------------------

theorem lfuDecodeLov_onDisk {layout : LovLayout} {b : Bytes} (disk : layout.OnDisk b)
    : lfuDecodeLov {} (some b) = decodeAll (lovStart b) layout.components := by
  rw [lfuDecodeLov_fold, lovComponents_onDisk disk, decodeAll]

theorem components_length (layout : LovLayout) : layout.components.length ≤ 65535 := by
  cases layout with
  | plain md => exact Nat.le_add_left 1 65534
  | composite md =>
      have few := md.few
      have most := List.length_filterMap_le (·.2) md.entries
      rw [LovLayout.components]
      omega

/-- The stripe count that is reported is the sum of the stripes the components hold. -/
theorem stripeCount_onDisk {layout : LovLayout} {b : Bytes} (disk : layout.OnDisk b)
    {eas : LfuEas} (supplied : eas.lov = some b)
    : (lfuEaDecode (some eas)).stripeCount.toNat
      = (layout.components.map LovMdsMd.stripes).sum := by
  have few := components_length layout
  have start := (lovStart_clear b).1
  have room : (lovStart b).stripeCount.toNat + 65535 * layout.components.length < 2 ^ 32 := by
    rw [start]
    exact Nat.lt_of_le_of_lt (Nat.add_le_add_left (Nat.mul_le_mul_left _ few) _) (by decide)
  show (lfuDecodeLov {} eas.lov).stripeCount.toNat = _
  rw [supplied, lfuDecodeLov_onDisk disk, decodeAll_stripeCount _ _ room, start]
  exact Nat.zero_add _

/-- Every field of a decoded layout is what the layout says, and a file is on a listed OST
exactly when a component that is neither on an MDT nor released has an object there.
-/
theorem layout_decoded (layout : LovLayout) (b : Bytes) (disk : layout.OnDisk b)
    (full : ∀ md ∈ layout.components, md.Full) (eas : LfuEas) (supplied : eas.lov = some b)
    : (lfuEaDecode (some eas)).haveLov = true
      ∧ (lfuEaDecode (some eas)).compCount.toNat = layout.count
      ∧ (lfuEaDecode (some eas)).mirrorCount.toNat = layout.mirrors
      ∧ (lfuEaDecode (some eas)).pattern
        = layout.components.foldl (fun bits md => bits ||| md.pattern) 0
      ∧ (lfuEaDecode (some eas)).poolText = firstName (layout.components.map LovMdsMd.pool)
      ∧ (lfuEaDecode (some eas)).stripeCount.toNat = dataStripes layout.components
      ∧ ∀ p : LfuPred, p.op = LfuOp.list.code
          → (lfuLovOnOst eas.lov p = true
            ↔ ∃ md ∈ layout.components,
                md.isData ∧ ¬md.isReleased ∧ ∃ o ∈ md.objects, o.ostIdx ∈ p.indices) := by
  obtain ⟨present, comps, mirrors⟩ := lovStart_onDisk disk
  obtain ⟨count, size, pattern, pool⟩ := lovStart_clear b
  obtain ⟨keptLov, keptComps, keptMirrors⟩ :=
    foldl_header (layout.components.map LovMdsMd.bytes) (lovStart b)
  have decoded : (lfuEaDecode (some eas)).toTier1Lov
      = decodeAll (lovStart b) layout.components := by
    rw [← lfuDecodeLov_onDisk disk, ← supplied]
    rfl
  have unnamed : (lovStart b).poolText = [] := by
    rw [Tier1Lov.poolText, pool]
    rfl
  rw [supplied]
  refine ⟨?_, ?_, ?_, ?_, ?_, ?_, fun p => lfuLovOnOst_onDisk disk full⟩
  · rw [decoded]
    exact keptLov.trans present
  · rw [decoded]
    exact (congrArg UInt32.toNat keptComps).trans comps
  · rw [decoded]
    exact (congrArg UInt32.toNat keptMirrors).trans mirrors
  · rw [decoded, decodeAll_pattern, pattern]
  · rw [decoded, decodeAll_poolText, if_pos unnamed]
  · rw [stripeCount_onDisk disk supplied, dataStripes_full _ full]

/-- A component on the MDT, one with two objects and a released one. -/
def mixedComponents : List LovMdsMd :=
  [
    {
      magic := .v1
      pattern := lovPatternMdt
      stripeSize := 0x100000
      stripeCount := 0
      objects := []
    },
    {
      magic := .v3
      pattern := lovPatternRaid0
      stripeSize := 0x400000
      stripeCount := 2
      poolName := (Vector.replicate 15 0).set 0 112
      objects := [{ ostIdx := 7 }, { ostIdx := 70000 }]
    },
    {
      magic := .v1
      pattern := lovPatternRaid0 ||| lovPatternFReleased
      stripeSize := 0x400000
      stripeCount := 3
      objects := []
    }
  ]

/-- A mirrored layout made of them. -/
def mixedLayout : LovCompMdV1 :=
  {
    mirrorCount := 1
    entries := placed (lovCompMdV1Size + lovCompMdEntryV1Size * 3) (mixedComponents.map some)
    few := by decide
  }

theorem mixedLayout_onDisk : (LovLayout.composite mixedLayout).OnDisk mixedLayout.bytes :=
  mixedLayout.onDisk_bytes (mixedComponents.map some) rfl (by decide +kernel)

theorem mixedComponents_full : ∀ md ∈ mixedComponents, md.Full := by
  intro md member
  simp only [mixedComponents, List.mem_cons, List.not_mem_nil, or_false] at member
  rcases member with rfl | rfl | rfl
  · intro _ _
    rfl
  · intro _ _
    rfl
  · intro _ kept
    exact absurd kept (by decide)

theorem layout_decoded_mixed
    : let eas : LfuEas := { lov := some mixedLayout.bytes }
      (LovLayout.composite mixedLayout).OnDisk mixedLayout.bytes
      ∧ (lfuEaDecode (some eas)).compCount.toNat = 3
      ∧ (lfuEaDecode (some eas)).mirrorCount.toNat = 2
      ∧ (lfuEaDecode (some eas)).poolText = [112]
      ∧ (lfuEaDecode (some eas)).stripeCount.toNat = 5 := by
  intro eas
  obtain ⟨_, comps, mirrors, _, pool, stripes, _⟩ :=
    layout_decoded _ _ mixedLayout_onDisk mixedComponents_full eas rfl
  exact ⟨mixedLayout_onDisk, comps, mirrors, pool, stripes⟩

-----------------------------------------------------------------------------------------
-- The stripe size
-----------------------------------------------------------------------------------------

/-- The stripe size that is reported is the first one that is not zero, on whatever kind of
component.
-/
theorem stripeSize_onDisk {layout : LovLayout} {b : Bytes} (disk : layout.OnDisk b)
    {eas : LfuEas} (supplied : eas.lov = some b)
    : (lfuEaDecode (some eas)).stripeSize = firstSize layout.components := by
  show (lfuDecodeLov {} eas.lov).stripeSize = _
  rw [supplied, lfuDecodeLov_onDisk disk, decodeAll_stripeSize, (lovStart_clear b).2.1,
    if_pos rfl]

theorem firstSize_eq_zero (mds : List LovMdsMd)
    : firstSize mds = 0 ↔ ∀ md ∈ mds, md.stripeSize = 0 := by
  unfold firstSize
  cases found : mds.find? (·.stripeSize != 0) with
  | none =>
      rw [List.find?_eq_none] at found
      simpa using found
  | some md =>
      have nonzero : md.stripeSize ≠ 0 := by simpa using List.find?_some found
      simp only [Option.map_some, Option.getD_some, nonzero, false_iff, not_forall]
      exact ⟨md, List.mem_of_find?_eq_some found, nonzero⟩

/-- A component without stripes adds none. -/
theorem sum_holdsStripes (mds : List LovMdsMd)
    : ((mds.filter LovMdsMd.holdsStripes).map LovMdsMd.stripes).sum
      = (mds.map LovMdsMd.stripes).sum := by
  induction mds with
  | nil => rfl
  | cons md rest ih =>
      rw [List.filter_cons, List.map_cons, List.sum_cons, ← ih]
      split
      · rw [List.map_cons, List.sum_cons]
      · rename_i none_
        have zero : md.stripes = 0 := by simpa [LovMdsMd.holdsStripes] using none_
        rw [zero, Nat.zero_add]

/-- The components without stripes that come before the first one with stripes: those on an
MDT, and those that have no object yet.
-/
def leadingEmpty (layout : LovLayout) : List LovMdsMd :=
  layout.components.takeWhile (!·.holdsStripes)

/-- The reported stripe count is that of the components that hold stripes, and the reported
stripe size is that of the first of them exactly when no component in front of it brings a
stripe size of its own that differs.
-/
theorem stripeSize_of_data_iff (layout : LovLayout) (b : Bytes) (disk : layout.OnDisk b)
    (eas : LfuEas) (supplied : eas.lov = some b) (first : LovMdsMd)
    (data : layout.components.find? LovMdsMd.holdsStripes = some first)
    : (lfuEaDecode (some eas)).stripeCount.toNat
        = ((layout.components.filter LovMdsMd.holdsStripes).map LovMdsMd.stripes).sum
      ∧ ((lfuEaDecode (some eas)).stripeSize = first.stripeSize
        ↔ if first.stripeSize = 0 then
            ∀ md ∈ layout.components, md.stripeSize = 0
          else
            ∀ md, (leadingEmpty layout).find? (·.stripeSize != 0) = some md
              → md.stripeSize = first.stripeSize) := by
  rw [stripeCount_onDisk disk supplied, stripeSize_onDisk disk supplied]
  refine ⟨(sum_holdsStripes _).symm, ?_⟩
  split
  · rename_i zero
    rw [zero, firstSize_eq_zero]
  · rename_i nonzero
    rw [List.find?_eq_head?_dropWhile_not, List.head?_eq_some_iff] at data
    obtain ⟨rest, tail⟩ := data
    have parts : layout.components = leadingEmpty layout ++ first :: rest := by
      rw [← tail, leadingEmpty, List.takeWhile_append_dropWhile]
    rw [firstSize, parts, List.find?_append]
    cases found : (leadingEmpty layout).find? (·.stripeSize != 0) with
    | none => simp [nonzero]
    | some md => simp

/-- A component with an object, one that will have an object once it is written to, and one
whose entry is empty.
-/
def growingComponents : List (Option LovMdsMd) :=
  [
    some {
      magic := .v1
      pattern := lovPatternRaid0
      stripeSize := 0x100000
      stripeCount := 1
      objects := [{ ostIdx := 7 }]
    },
    some {
      magic := .v1
      pattern := lovPatternRaid0
      stripeSize := 0x400000
      stripeCount := 1
      objects := []
    },
    none
  ]

def growingLayout : LovCompMdV1 :=
  {
    mirrorCount := 0
    entries := placed (lovCompMdV1Size + lovCompMdEntryV1Size * 3) growingComponents
    few := by decide
  }

theorem growingLayout_onDisk
    : (LovLayout.composite growingLayout).OnDisk growingLayout.bytes :=
  growingLayout.onDisk_bytes growingComponents rfl (by decide +kernel)

theorem stripeSize_of_data_iff_growing
    : let layout := LovLayout.composite growingLayout
      let eas : LfuEas := { lov := some growingLayout.bytes }
      layout.OnDisk growingLayout.bytes
      ∧ ∃ first, layout.components.find? LovMdsMd.holdsStripes = some first
          ∧ (lfuEaDecode (some eas)).stripeCount.toNat = 1
          ∧ (lfuEaDecode (some eas)).stripeSize = first.stripeSize
          ∧ first.stripeSize = 0x100000 := by
  intro layout eas
  obtain ⟨first, found⟩ : ∃ first, layout.components.find? LovMdsMd.holdsStripes = some first :=
    ⟨_, rfl⟩
  obtain ⟨count, size⟩ := stripeSize_of_data_iff _ _ growingLayout_onDisk eas rfl first found
  cases found
  refine ⟨growingLayout_onDisk, _, rfl, count, size.mpr ?_, rfl⟩
  intro md before
  cases before

/-- A layout that begins on the MDT: the stripe size reported, and compared, is not that of
the component with stripes.
-/
theorem stripeSize_dom_first
    : let eas : LfuEas := { lov := some mixedLayout.bytes }
      let stripeSize : LfuPred :=
        { field := LfuField.stripeSize.code, op := LfuOp.eq.code, val := 0x400000 }
      (mixedComponents.find? LovMdsMd.holdsStripes).map LovMdsMd.stripeSize = some 0x400000
      ∧ (lfuEaDecode (some eas)).stripeSize = 0x100000
      ∧ tier1Hit exactNames stripeSize {} (lfuEaDecode (some eas)) (some eas)
        = .hit false := by
  intro eas stripeSize
  have reported : (lfuEaDecode (some eas)).stripeSize = 0x100000 :=
    stripeSize_onDisk mixedLayout_onDisk rfl
  refine ⟨rfl, reported, ?_⟩
  show Tier1Hit.hit ((lfuEaDecode (some eas)).haveLov
    && lfuCmp stripeSize (lfuEaDecode (some eas)).stripeSize.toUInt64) = _
  rw [reported, show lfuCmp stripeSize (0x100000 : UInt32).toUInt64 = false by decide,
    Bool.and_false]

end LfuScan.Filter
