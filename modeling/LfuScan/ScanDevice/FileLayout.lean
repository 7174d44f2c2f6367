import Mathlib.Data.Nat.Bitwise
import LfuScan.Filter.Bounds
import LfuScan.Filter.Layout

/-! `trusted.lov` as a scan of a target reads it. Whether the size an inode has is the size of
the file depends on the layout: on a file that was released, or whose data is on the MDT alone.
-/

namespace LfuScan.ScanDevice

open LfuScan.Lustre LfuScan.Foundations LfuScan.Filter

/-- The loop of `scan_lov_released`, from the table entry at an offset on. -/
def componentsReleased (buf : Bytes) : Nat → Nat → Option Bool
  | 0, _ => some true
  | left + 1, entry => do
      let off ← Checked.lfuLe32 buf (entry + 24)
      if off.toNat > buf.length - lovMdsMdV1Size then
        return false
      else
        let pattern ← Checked.lfuLe32 buf (off.toNat + 4)
        if pattern &&& lovPatternFReleased == 0 then
          return false
        else
          componentsReleased buf left (entry + lovCompMdEntryV1Size)

def scanLovReleased (buf : Bytes) : Option Bool :=
  if buf.length < lovMdsMdV1Size then
    some false
  else do
    let magic ← Checked.lfuLe32 buf 0
    if magic == lovMagicV1 || magic == lovMagicV3 then
      let pattern ← Checked.lfuLe32 buf 4
      return pattern &&& lovPatternFReleased != 0
    else if magic ≠ lovMagicCompV1 || buf.length < lovCompMdV1Size then
      return false
    else
      let count ← Checked.lfuLe16 buf 14
      if buf.length < lovCompMdV1Size + count.toNat * lovCompMdEntryV1Size then
        return false
      else
        componentsReleased buf count.toNat lovCompMdV1Size

/-- The loop of `scan_lov_dom_only`, with what it has found so far. -/
def componentsDomOnly (buf : Bytes) : Nat → Nat → Bool → Option Bool
  | 0, _, dom => some dom
  | left + 1, entry, dom => do
      let off ← Checked.lfuLe32 buf (entry + 24)
      let flags ← Checked.lfuLe32 buf (entry + 4)
      if flags &&& lcmeFlInit == 0 then
        componentsDomOnly buf left (entry + lovCompMdEntryV1Size) dom
      else if off.toNat > buf.length - lovMdsMdV1Size then
        return false
      else
        let pattern ← Checked.lfuLe32 buf (off.toNat + 4)
        if pattern &&& lovPatternMdt == 0 then
          return false
        else
          componentsDomOnly buf left (entry + lovCompMdEntryV1Size) true

def scanLovDomOnly (buf : Bytes) : Option Bool :=
  if buf.length < lovCompMdV1Size then
    some false
  else do
    let magic ← Checked.lfuLe32 buf 0
    if magic ≠ lovMagicCompV1 then
      return false
    else
      let count ← Checked.lfuLe16 buf 14
      if buf.length < lovCompMdV1Size + count.toNat * lovCompMdEntryV1Size then
        return false
      else
        componentsDomOnly buf count.toNat lovCompMdV1Size false

section Inside

variable {buf : Bytes}

theorem componentsReleased_inside (long : lovMdsMdV1Size ≤ buf.length) (left entry : Nat)
    (table : entry + left * lovCompMdEntryV1Size ≤ buf.length)
    : ∃ result, componentsReleased buf left entry = some result := by
  induction left generalizing entry with
  | zero => exact ⟨true, rfl⟩
  | succ left ih =>
      simp only [lovMdsMdV1Size, lovCompMdEntryV1Size] at long table ih
      obtain ⟨result, later⟩ := ih (entry + 48) (by omega)
      rw [componentsReleased, Checked.lfuLe32_inside (by omega), Option.bind_eq_bind,
        Option.bind_some]
      split
      · exact ⟨false, rfl⟩
      · rename_i inside
        simp only [lovMdsMdV1Size] at inside
        rw [Checked.lfuLe32_inside (by omega), Option.bind_some]
        split
        · exact ⟨false, rfl⟩
        · exact ⟨result, later⟩

theorem scanLovReleased_inside (buf : Bytes) : ∃ result, scanLovReleased buf = some result := by
  unfold scanLovReleased
  split
  · exact ⟨false, rfl⟩
  · rename_i long
    have long : 32 ≤ buf.length := Nat.not_lt.mp long
    rw [Checked.lfuLe32_inside (by omega), Checked.lfuLe32_inside (by omega),
      Checked.lfuLe16_inside (by omega)]
    simp only [Option.bind_eq_bind, Option.bind_some]
    split
    · exact ⟨_, rfl⟩
    · split
      · exact ⟨false, rfl⟩
      · split
        · exact ⟨false, rfl⟩
        · rename_i table
          exact componentsReleased_inside long _ _ (Nat.not_lt.mp table)

theorem componentsDomOnly_inside (long : lovMdsMdV1Size ≤ buf.length) (left entry : Nat)
    (dom : Bool) (table : entry + left * lovCompMdEntryV1Size ≤ buf.length)
    : ∃ result, componentsDomOnly buf left entry dom = some result := by
  induction left generalizing entry dom with
  | zero => exact ⟨dom, rfl⟩
  | succ left ih =>
      simp only [lovMdsMdV1Size, lovCompMdEntryV1Size] at long table ih
      have later (dom : Bool) := ih (entry + 48) dom (by omega)
      rw [componentsDomOnly, Checked.lfuLe32_inside (by omega),
        Checked.lfuLe32_inside (by omega), Option.bind_eq_bind, Option.bind_some,
        Option.bind_some]
      split
      · exact later dom
      · split
        · exact ⟨false, rfl⟩
        · rename_i inside
          simp only [lovMdsMdV1Size] at inside
          rw [Checked.lfuLe32_inside (by omega), Option.bind_some]
          split
          · exact ⟨false, rfl⟩
          · exact later true

theorem scanLovDomOnly_inside (buf : Bytes) : ∃ result, scanLovDomOnly buf = some result := by
  unfold scanLovDomOnly
  split
  · exact ⟨false, rfl⟩
  · rename_i long
    have long : 32 ≤ buf.length := Nat.not_lt.mp long
    rw [Checked.lfuLe32_inside (by omega), Checked.lfuLe16_inside (by omega)]
    simp only [Option.bind_eq_bind, Option.bind_some]
    split
    · exact ⟨false, rfl⟩
    · split
      · exact ⟨false, rfl⟩
      · rename_i table
        exact componentsDomOnly_inside long _ _ _ (Nat.not_lt.mp table)

end Inside

-----------------------------------------------------------------------------------------
-- A layout on disk
-----------------------------------------------------------------------------------------

/-- What a walker reads of one table entry and of the component it points at. -/
structure EntryRead (b : Bytes) (at_ : Nat) (entry : LovCompMdEntryV1) (pattern : UInt32)
    : Prop where
  offset : Checked.lfuLe32 b (at_ + 24) = some entry.offset
  flags : Checked.lfuLe32 b (at_ + 4) = some entry.flags
  inside : ¬ entry.offset.toNat > b.length - lovMdsMdV1Size
  pattern : Checked.lfuLe32 b (entry.offset.toNat + 4) = some pattern

/-- The pattern that is found behind an entry. Neither of the walkers looks at the size: behind
an empty entry, which points at the start of the attribute, they read `lcm_size`.
-/
def patternRead (md : LovCompMdV1) (component : Option LovMdsMd) : UInt32 :=
  component.elim md.size LovMdsMd.pattern

/-- An empty entry points at the start of the attribute. -/
def EmptyAtStart (md : LovCompMdV1) : Prop :=
  ∀ entry ∈ md.entries, entry.2 = none → entry.1.offset = 0

section OnDisk

variable {b : Bytes}

theorem entry_fields {at_ : Nat} {entry : LovCompMdEntryV1}
    (here : (b.drop at_).take lovCompMdEntryV1Size = entry.bytes)
    : Checked.lfuLe32 b (at_ + 24) = some entry.offset
      ∧ Checked.lfuLe32 b (at_ + 4) = some entry.flags := by
  have placed : at_ + 48 ≤ b.length := by
    have length := congrArg List.length here
    simp only [List.length_take, List.length_drop, LovCompMdEntryV1.length_bytes,
      lovCompMdEntryV1Size] at length
    omega
  constructor
  · rw [Checked.lfuLe32_inside (by omega), ← entry.lfuLe32_offset, ← here,
      lfuLe32_window b (by decide)]
  · rw [Checked.lfuLe32_inside (by omega), ← entry.lfuLe32_flags, ← here,
      lfuLe32_window b (by decide)]

theorem EntryRead.of_component {at_ : Nat} {entry : LovCompMdEntryV1} {md : LovMdsMd}
    (here : (b.drop at_).take lovCompMdEntryV1Size = entry.bytes)
    (size : entry.size.toNat = md.bytes.length)
    (found : (b.drop entry.offset.toNat).take entry.size.toNat = md.bytes)
    : EntryRead b at_ entry md.pattern := by
  have positive := le_length_component md
  have component : entry.offset.toNat + entry.size.toNat ≤ b.length := by
    have whole := congrArg List.length found
    rw [List.length_take, List.length_drop, ← size] at whole
    simp only [lovMdsMdV1Size] at positive
    omega
  simp only [lovMdsMdV1Size] at positive
  obtain ⟨offset, flags⟩ := entry_fields here
  refine ⟨offset, flags, by simp only [lovMdsMdV1Size]; omega, ?_⟩
  rw [Checked.lfuLe32_inside (by omega), ← md.lfuLe32_pattern, ← found,
    lfuLe32_window b (by omega)]

theorem EntryRead.of_empty {at_ : Nat} {md : LovCompMdV1} {entry : LovCompMdEntryV1}
    (header : b.take lovCompMdV1Size = md.header)
    (here : (b.drop at_).take lovCompMdEntryV1Size = entry.bytes) (start : entry.offset = 0)
    : EntryRead b at_ entry md.size := by
  have long := (header_fields header).2.2.2
  simp only [lovCompMdV1Size] at long
  obtain ⟨offset, flags⟩ := entry_fields here
  refine ⟨offset, flags, ?_, ?_⟩
  · rw [start]
    exact Nat.not_lt.mpr (Nat.zero_le _)
  · have size : lfuLe32 md.header 4 = md.size :=
      (lfuLe32_skip (length_le32 _) _ 0).trans (lfuLe32_head _ _)
    rw [start, Checked.lfuLe32_inside (by simpa using Nat.le_trans (by decide) long), ← size,
      ← header, ← List.drop_zero (l := b), lfuLe32_window _ (by decide), List.drop_zero]
    rfl

/-- The table of a layout is its first entry, and the table of the others behind it. -/
theorem table_cons {at_ : Nat} {entry : LovCompMdEntryV1 × Option LovMdsMd}
    {rest : List (LovCompMdEntryV1 × Option LovMdsMd)}
    (table : (b.drop at_).take (lovCompMdEntryV1Size * (entry :: rest).length)
      = (entry :: rest).flatMap (·.1.bytes))
    : (b.drop at_).take lovCompMdEntryV1Size = entry.1.bytes
      ∧ (b.drop (at_ + lovCompMdEntryV1Size)).take (lovCompMdEntryV1Size * rest.length)
        = rest.flatMap (·.1.bytes) := by
  rw [List.length_cons, Nat.mul_succ, Nat.add_comm, List.take_add, List.drop_drop,
    List.flatMap_cons] at table
  have whole := congrArg List.length table
  simp only [List.length_append, List.length_take, List.length_drop, length_table,
    LovCompMdEntryV1.length_bytes] at whole
  exact List.append_inj table (by
    rw [LovCompMdEntryV1.length_bytes, List.length_take, List.length_drop]
    omega)

/-- Every entry is read, in order. -/
inductive TableRead (md : LovCompMdV1) (b : Bytes)
    : Nat → List (LovCompMdEntryV1 × Option LovMdsMd) → Prop
  | nil (at_ : Nat) : TableRead md b at_ []
  | cons {at_ : Nat} {entry : LovCompMdEntryV1 × Option LovMdsMd}
    {rest : List (LovCompMdEntryV1 × Option LovMdsMd)}
    (first : EntryRead b at_ entry.1 (patternRead md entry.2))
    (others : TableRead md b (at_ + lovCompMdEntryV1Size) rest)
    : TableRead md b at_ (entry :: rest)

theorem TableRead.of_onDisk {md : LovCompMdV1} {at_ : Nat}
    (header : b.take lovCompMdV1Size = md.header)
    (entries : List (LovCompMdEntryV1 × Option LovMdsMd))
    (table : (b.drop at_).take (lovCompMdEntryV1Size * entries.length)
      = entries.flatMap (·.1.bytes))
    (components : ∀ entry ∈ entries, Stored b entry)
    (empty : ∀ entry ∈ entries, entry.2 = none → entry.1.offset = 0)
    : TableRead md b at_ entries := by
  induction entries generalizing at_ with
  | nil => exact .nil at_
  | cons entry rest ih =>
      obtain ⟨here, later⟩ := table_cons table
      obtain ⟨size, found⟩ := components entry List.mem_cons_self
      refine .cons ?_
        (ih later (fun other member => components other (List.mem_cons_of_mem _ member))
          (fun other member => empty other (List.mem_cons_of_mem _ member)))
      rcases entry with ⟨entry, none | component⟩
      · exact .of_empty header here (empty _ List.mem_cons_self rfl)
      · exact .of_component here size (found component rfl)

/-- The table of a layout on disk is read as it is. -/
theorem TableRead.whole {md : LovCompMdV1} (disk : md.OnDisk b) (empty : EmptyAtStart md)
    : TableRead md b lovCompMdV1Size md.entries :=
  .of_onDisk disk.header md.entries disk.table disk.components empty

theorem componentsReleased_read {md : LovCompMdV1} {at_ : Nat}
    {entries : List (LovCompMdEntryV1 × Option LovMdsMd)} (read : TableRead md b at_ entries)
    : componentsReleased b entries.length at_
      = some (entries.all fun entry => patternRead md entry.2 &&& lovPatternFReleased != 0) := by
  induction read with
  | nil => rfl
  | @cons at_ entry rest first others ih =>
      rw [List.length_cons, componentsReleased, first.offset, Option.bind_eq_bind,
        Option.bind_some, if_neg first.inside, first.pattern, Option.bind_some, List.all_cons,
        ih]
      by_cases released : (patternRead md entry.2 &&& lovPatternFReleased != 0) = true
      · rw [if_neg (by simpa using released), released, Bool.true_and]
      · rw [if_pos (by simpa using released), Bool.eq_false_iff.mpr released, Bool.false_and]
        rfl

/-- An entry whose component has been instantiated. -/
def isInit (entry : LovCompMdEntryV1 × Option LovMdsMd) : Bool :=
  entry.1.flags &&& lcmeFlInit != 0

theorem componentsDomOnly_read {md : LovCompMdV1} {at_ : Nat}
    {entries : List (LovCompMdEntryV1 × Option LovMdsMd)} (read : TableRead md b at_ entries)
    (dom : Bool)
    : componentsDomOnly b entries.length at_ dom
      = some ((dom || entries.any isInit)
          && entries.all fun entry =>
            !isInit entry || patternRead md entry.2 &&& lovPatternMdt != 0) := by
  induction read generalizing dom with
  | nil => simp [componentsDomOnly]
  | @cons at_ entry rest first others ih =>
      rw [List.length_cons, componentsDomOnly, first.offset, Option.bind_eq_bind,
        Option.bind_some, first.flags, Option.bind_some, List.all_cons, List.any_cons]
      by_cases init : isInit entry = true
      · rw [if_neg (by simpa [isInit] using init), if_neg first.inside, first.pattern,
          Option.bind_some, init, ih]
        by_cases mdt : (patternRead md entry.2 &&& lovPatternMdt != 0) = true
        · rw [if_neg (by simpa using mdt), mdt]
          simp
        · rw [if_pos (by simpa using mdt), Bool.eq_false_iff.mpr mdt]
          simp
      · rw [if_pos (by simpa [isInit] using init), ih, Bool.eq_false_iff.mpr init]
        simp

/-- The table of a composite layout lies inside the attribute. -/
theorem table_inside {md : LovCompMdV1} (disk : md.OnDisk b)
    : ¬ b.length < lovCompMdV1Size + md.entries.length * lovCompMdEntryV1Size := by
  have long := (header_fields disk.header).2.2.2
  have table := congrArg List.length disk.table
  rw [length_table, List.length_take, List.length_drop] at table
  rw [Nat.mul_comm]
  simp only [lovCompMdV1Size] at long table ⊢
  omega

/-- Whether each component of a layout is released. Where an entry is empty there is none
that could be.
-/
def layoutReleased : LovLayout → Bool
  | .plain md => md.isReleased
  | .composite md => md.entries.all (·.2.any LovMdsMd.isReleased)

/-- The sizes `lcm_size` can have leave the bit of a released component clear. -/
theorem size_unreleased {size : UInt32} (small : size.toNat < 2 ^ 31)
    : size &&& lovPatternFReleased = 0 := by
  rw [← UInt32.toNat_inj, UInt32.toNat_and,
    show lovPatternFReleased.toNat = 2 ^ 31 from rfl, Nat.and_two_pow,
    Nat.testBit_lt_two_pow small]
  rfl

/-- A file is released when each of its components is: exactly that is read off a layout a
file can have. Of a composite layout with no component this is true as well.
-/
theorem scanLovReleased_onDisk {layout : LovLayout} (disk : layout.OnDisk b)
    (striped : ∀ md, layout = .plain md → md.magic ≠ .specific)
    (empty : ∀ md, layout = .composite md → EmptyAtStart md ∧ md.size.toNat < 2 ^ 31)
    : scanLovReleased b = some (layoutReleased layout) := by
  cases layout with
  | plain md =>
      cases disk
      have long := le_length_component md
      have plain : (md.magic.code == lovMagicV1 || md.magic.code == lovMagicV3) = true := by
        cases kind : md.magic with
        | v1 | v3 => decide
        | specific => exact absurd kind (striped md rfl)
      unfold scanLovReleased
      simp only [lovMdsMdV1Size] at long
      rw [if_neg (by simp only [lovMdsMdV1Size]; omega), Checked.lfuLe32_inside (by omega),
        Checked.lfuLe32_inside (by omega), md.lfuLe32_magic, md.lfuLe32_pattern]
      simp only [Option.bind_eq_bind, Option.bind_some, plain, if_true]
      rfl
  | composite md =>
      obtain ⟨magic, count, _, long⟩ := header_fields disk.header
      obtain ⟨start, small⟩ := empty md rfl
      have behind (component : Option LovMdsMd)
          : (patternRead md component &&& lovPatternFReleased != 0)
            = component.any LovMdsMd.isReleased := by
        cases component with
        | none => simp [patternRead, size_unreleased small]
        | some component => rfl
      simp only [lovCompMdV1Size] at long
      unfold scanLovReleased
      rw [if_neg (by simp only [lovMdsMdV1Size]; omega), Checked.lfuLe32_inside (by omega),
        Checked.lfuLe16_inside (by omega), magic]
      simp only [Option.bind_eq_bind, Option.bind_some, count]
      have whole : decide (b.length < lovCompMdV1Size) = false :=
        decide_eq_false (Nat.not_lt.mpr long)
      rw [if_neg (by decide), if_neg (by rw [whole]; decide), if_neg (table_inside disk),
        componentsReleased_read (.whole disk start)]
      simp only [behind]
      rfl

/-- The data of a file is on the MDT alone when an instantiated component is there and every
one of them is an MDT's: exactly that is read off a composite layout.
-/
theorem scanLovDomOnly_onDisk {md : LovCompMdV1} (disk : md.OnDisk b) (empty : EmptyAtStart md)
    (uninstantiated : ∀ entry ∈ md.entries, entry.2 = none → isInit entry = false)
    : scanLovDomOnly b
      = some (md.entries.any isInit
          && md.entries.all fun entry => !isInit entry || entry.2.any (!·.isData)) := by
  obtain ⟨magic, count, _, long⟩ := header_fields disk.header
  simp only [lovCompMdV1Size] at long
  unfold scanLovDomOnly
  rw [if_neg (by simp only [lovCompMdV1Size]; omega), Checked.lfuLe32_inside (by omega),
    Checked.lfuLe16_inside (by omega), magic]
  simp only [Option.bind_eq_bind, Option.bind_some, count]
  rw [if_neg (by decide), if_neg (table_inside disk),
    componentsDomOnly_read (.whole disk empty), Bool.false_or]
  congr 2
  refine Bool.eq_iff_iff.mpr ?_
  rw [List.all_eq_true, List.all_eq_true]
  refine forall_congr' fun entry => forall_congr' fun member => ?_
  rcases entry with ⟨entry, none | component⟩
  · rw [uninstantiated _ member rfl]
    simp
  · simp [patternRead, LovMdsMd.isData]

/-- A component that says it has a stripe and has no object for it. -/
def bareComponent (pattern : UInt32) : LovMdsMd :=
  { magic := .v1, pattern, stripeSize := 0x100000, stripeCount := 1, objects := [] }

/-- Three entries, the first with flags and the last one empty. -/
def bareEntries (flags first second : UInt32)
    : List (LovCompMdEntryV1 × Option LovMdsMd) :=
  [
    ({ flags, offset := 176, size := 32 }, some (bareComponent first)),
    ({ offset := 208, size := 32 }, some (bareComponent second)),
    ({ offset := 0, size := 0 }, none)
  ]

theorem bareEntries_few (flags first second : UInt32)
    : (bareEntries flags first second).length < 2 ^ 16 :=
  Nat.lt_of_lt_of_le (Nat.lt_succ_self 3) (by decide)

def bareLayout (flags first second : UInt32) : LovCompMdV1 :=
  {
    mirrorCount := 0
    entries := bareEntries flags first second
    few := bareEntries_few flags first second
  }

theorem bareLayout_onDisk (flags first second : UInt32)
    : (bareLayout flags first second).OnDisk (bareLayout flags first second).bytes := by
  refine ⟨rfl, rfl, ?_⟩
  intro entry member
  simp only [bareLayout, bareEntries, List.mem_cons, List.not_mem_nil, or_false] at member
  rcases member with rfl | rfl | rfl
  · refine ⟨rfl, ?_⟩
    rintro md ⟨⟩
    rfl
  · refine ⟨rfl, ?_⟩
    rintro md ⟨⟩
    rfl
  · refine ⟨rfl, ?_⟩
    rintro md ⟨⟩

theorem bareLayout_empty (flags first second : UInt32)
    : EmptyAtStart (bareLayout flags first second) := by
  intro entry member none_
  simp only [bareLayout, bareEntries, List.mem_cons, List.not_mem_nil, or_false] at member
  rcases member with rfl | rfl | rfl
  · cases none_
  · cases none_
  · rfl

/-- A released component in front of one that was never instantiated, and one by itself. -/
theorem scanLovReleased_bare
    : scanLovReleased (bareLayout lcmeFlInit lovPatternFReleased lovPatternRaid0).bytes
        = some false
      ∧ scanLovReleased (bareComponent lovPatternFReleased).bytes = some true := by
  constructor
  · refine scanLovReleased_onDisk
      (show (LovLayout.composite _).OnDisk _ from bareLayout_onDisk _ _ _)
      (fun _ => LovLayout.noConfusion) ?_
    rintro md ⟨⟩
    exact ⟨bareLayout_empty _ _ _, by decide⟩
  · refine scanLovReleased_onDisk (show (LovLayout.plain _).OnDisk _ from rfl) ?_
      (fun _ => LovLayout.noConfusion)
    rintro md ⟨⟩
    decide

/-- An instantiated component on the MDT, and two that are not instantiated: they do not
count.
-/
theorem scanLovDomOnly_bare
    : scanLovDomOnly (bareLayout lcmeFlInit lovPatternMdt lovPatternRaid0).bytes = some true :=
  scanLovDomOnly_onDisk (bareLayout_onDisk _ _ _) (bareLayout_empty _ _ _) (by decide)

end OnDisk

end LfuScan.ScanDevice
