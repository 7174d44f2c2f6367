import Mathlib.Algebra.Group.Nat.Defs
import LfuScan.Filter.Eval

/-! The two walkers over a layout: the one that decodes it and the one that looks for an OST.
Both go through the same components, and outside released ones through the same object
entries, however the bytes are mangled.
-/

namespace LfuScan.Filter

open LfuScan.Lustre

-----------------------------------------------------------------------------------------
-- The components of a layout
-----------------------------------------------------------------------------------------

/-- The components the entry table names, `left` entries from offset `off` on. -/
def tableComponents (b : Bytes) : Nat → Nat → List Bytes
  | 0, _ => []
  | left + 1, off =>
      if off + lovCompMdEntryV1Size > b.length then
        []
      else
        (lovComponent? b off).toList ++ tableComponents b left (off + lovCompMdEntryV1Size)

/-- The components of an attribute: itself, or what its table names. -/
def lovComponents (b : Bytes) : List Bytes :=
  if b.length < 4 then
    []
  else if lfuLe32 b 0 != lovMagicCompV1 then
    [b]
  else if b.length < lovCompMdV1Size then
    []
  else
    tableComponents b (lfuLe16 b 14).toNat lovCompMdV1Size

/-- What the decoder has set before it turns to the components. -/
def lovStart (b : Bytes) : Tier1Lov :=
  if b.length < 4 then
    {}
  else
    let t1 : Tier1Lov := { lovMagic := lfuLe32 b 0, haveLov := true }
    if lfuLe32 b 0 != lovMagicCompV1 then
      { t1 with compCount := 1, mirrorCount := 1 }
    else if b.length < lovCompMdV1Size then
      t1
    else
      {
        t1 with
        compCount := (lfuLe16 b 14).toUInt32
        mirrorCount := (lfuLe16 b 16).toUInt32 + 1
      }

theorem decodeComponents_fold (b : Bytes) (left off : Nat) (t1 : Tier1Lov)
    : decodeComponents b left off t1
      = (tableComponents b left off).foldl lfuDecodeLovOne t1 := by
  induction left generalizing off t1 with
  | zero => rfl
  | succ left ih =>
      unfold decodeComponents tableComponents
      split
      · rfl
      · cases lovComponent? b off with
        | none => exact ih _ t1
        | some c => exact ih _ _

/-- Decoding is a fold over the components. -/
theorem lfuDecodeLov_fold (b : Bytes)
    : lfuDecodeLov {} (some b) = (lovComponents b).foldl lfuDecodeLovOne (lovStart b) := by
  unfold lfuDecodeLov lovComponents lovStart
  dsimp only
  split
  · rfl
  split
  · rfl
  split
  · rfl
  · exact decodeComponents_fold b _ _ _

/-- The table entry after the one with index `i`. -/
theorem tableEntry_succ (i : Nat)
    : lovCompMdV1Size + i * lovCompMdEntryV1Size + lovCompMdEntryV1Size
      = lovCompMdV1Size + (i + 1) * lovCompMdEntryV1Size := by
  rw [Nat.succ_mul, Nat.add_assoc]

theorem componentsOnOst_any (p : LfuPred) (b : Bytes) (left i : Nat)
    : componentsOnOst p b left i
      = (tableComponents b left (lovCompMdV1Size + i * lovCompMdEntryV1Size)).any
          (componentOnOst p) := by
  induction left generalizing i with
  | zero => rfl
  | succ left ih =>
      unfold componentsOnOst tableComponents
      dsimp only
      split
      · rfl
      · rw [tableEntry_succ]
        cases lovComponent? b (lovCompMdV1Size + i * lovCompMdEntryV1Size) with
        | none => exact ih (i + 1)
        | some c =>
            simp only [Option.toList_some, List.singleton_append, List.any_cons, ih]
            cases componentOnOst p c <;> rfl

/-- The search for an OST asks the same components in turn. -/
theorem lfuLovOnOst_any (p : LfuPred) (b : Bytes)
    : lfuLovOnOst (some b) p = (lovComponents b).any (componentOnOst p) := by
  unfold lfuLovOnOst lovComponents
  dsimp only
  split
  · rfl
  by_cases composite : lfuLe32 b 0 = lovMagicCompV1
  · simp only [composite, beq_self_eq_true, bne_self_eq_false, if_true, Bool.false_eq_true,
      if_false]
    split
    · rfl
    · exact componentsOnOst_any p b _ 0
  · simp [composite]

/-- The OST indices of the object loop, `left` entries from index `s` on. -/
def objectEntries (c : Bytes) (hdr : Nat) : Nat → Nat → List UInt32
  | 0, _ => []
  | left + 1, s =>
      let o := hdr + s * lovOstDataV1Size
      if o + lovOstDataV1Size > c.length then
        []
      else
        lfuLe32 c (o + 20) :: objectEntries c hdr left (s + 1)

/-- The OST indices a component offers to the search. -/
def componentEntries (c : Bytes) : List UInt32 :=
  if c.length < lovMdsMdV1Size then
    []
  else
    match lovHeaderSize? (lfuLe32 c 0) with
    | none => []
    | some hdr =>
        if lfuLe32 c 4 &&& (lovPatternMdt ||| lovPatternFReleased) != 0 then
          []
        else
          objectEntries c hdr (lfuLe16 c 28).toNat 0

theorem objectsOnOst_any (p : LfuPred) (c : Bytes) (hdr left s : Nat)
    : objectsOnOst p c hdr left s
      = (objectEntries c hdr left s).any (fun index => lfuCmp p index.toUInt64) := by
  induction left generalizing s with
  | zero => rfl
  | succ left ih =>
      unfold objectsOnOst objectEntries
      dsimp only
      split
      · rfl
      · rw [ih, List.any_cons]
        cases lfuCmp p _ <;> rfl

theorem componentOnOst_any (p : LfuPred) (c : Bytes)
    : componentOnOst p c = (componentEntries c).any (fun index => lfuCmp p index.toUInt64) := by
  unfold componentOnOst componentEntries
  dsimp only
  split
  · rfl
  cases lovHeaderSize? (lfuLe32 c 0) with
  | none => rfl
  | some hdr =>
      dsimp only
      split
      · rfl
      · exact objectsOnOst_any p c hdr _ 0

/-- Whether a file is on a listed OST depends on the predicate through its comparison only. -/
theorem lfuLovOnOst_congr {p q : LfuPred} (same : lfuCmp p = lfuCmp q) (ea : LfuEa)
    : lfuLovOnOst ea p = lfuLovOnOst ea q := by
  cases ea with
  | none => rfl
  | some b =>
      have component : componentOnOst p = componentOnOst q := by
        funext c
        rw [componentOnOst_any, componentOnOst_any, same]
      rw [lfuLovOnOst_any, lfuLovOnOst_any, component]

/-- The object loop takes every entry that is declared and inside the component. -/
theorem objectEntries_length (c : Bytes) (hdr left s : Nat)
    : (objectEntries c hdr left s).length
      = min left ((c.length - hdr) / lovOstDataV1Size - s) := by
  induction left generalizing s with
  | zero => simp [objectEntries]
  | succ left ih =>
      unfold objectEntries
      dsimp only
      split
      · rw [List.length_nil]
        simp only [lovOstDataV1Size] at *
        omega
      · rw [List.length_cons, ih]
        simp only [lovOstDataV1Size] at *
        omega

-----------------------------------------------------------------------------------------
-- The entries a search examines
-----------------------------------------------------------------------------------------

/-- How many entries the object loop compares: it stops at the first hit. -/
def objectsExamined (p : LfuPred) (c : Bytes) (hdr : Nat) : Nat → Nat → Nat
  | 0, _ => 0
  | left + 1, s =>
      let o := hdr + s * lovOstDataV1Size
      if o + lovOstDataV1Size > c.length then
        0
      else if lfuCmp p (lfuLe32 c (o + 20)).toUInt64 then
        1
      else
        objectsExamined p c hdr left (s + 1) + 1

/-- How many entries of one component are compared. -/
def componentExamined (p : LfuPred) (c : Bytes) : Nat :=
  if c.length < lovMdsMdV1Size then
    0
  else
    match lovHeaderSize? (lfuLe32 c 0) with
    | none => 0
    | some hdr =>
        if lfuLe32 c 4 &&& (lovPatternMdt ||| lovPatternFReleased) != 0 then
          0
        else
          objectsExamined p c hdr (lfuLe16 c 28).toNat 0

/-- How many entries the component loop compares, from table index `i` on. -/
def componentsExamined (p : LfuPred) (b : Bytes) : Nat → Nat → Nat
  | 0, _ => 0
  | left + 1, i =>
      let eo := lovCompMdV1Size + i * lovCompMdEntryV1Size
      if eo + lovCompMdEntryV1Size > b.length then
        0
      else
        match lovComponent? b eo with
        | none => componentsExamined p b left (i + 1)
        | some c =>
            if componentOnOst p c then
              componentExamined p c
            else
              componentExamined p c + componentsExamined p b left (i + 1)

/-- How many object entries `lfu_lov_on_ost` compares. -/
def lovExamined (ea : LfuEa) (p : LfuPred) : Nat :=
  match ea with
  | none => 0
  | some b =>
      if b.length < 4 then
        0
      else if lfuLe32 b 0 == lovMagicCompV1 then
        if b.length < lovCompMdV1Size then
          0
        else
          componentsExamined p b (lfuLe16 b 14).toNat 0
      else
        componentExamined p b

theorem objectsExamined_miss {p : LfuPred} (c : Bytes) (hdr left s : Nat)
    (miss : objectsOnOst p c hdr left s = false)
    : objectsExamined p c hdr left s = (objectEntries c hdr left s).length := by
  induction left generalizing s with
  | zero => rfl
  | succ left ih =>
      unfold objectsOnOst at miss
      unfold objectsExamined objectEntries
      dsimp only at miss ⊢
      split
      · rfl
      · rename_i fits
        rw [if_neg fits] at miss
        split at miss
        · cases miss
        · rename_i other
          rw [if_neg other, ih (s + 1) miss, List.length_cons]

theorem componentExamined_miss {p : LfuPred} {c : Bytes} (miss : componentOnOst p c = false)
    : componentExamined p c = (componentEntries c).length := by
  unfold componentOnOst at miss
  unfold componentExamined componentEntries
  split
  · rfl
  rename_i long
  rw [if_neg long] at miss
  cases header : lovHeaderSize? (lfuLe32 c 0) with
  | none => rfl
  | some hdr =>
      rw [header] at miss
      dsimp only at miss ⊢
      split
      · rfl
      · rename_i counted
        rw [if_neg counted] at miss
        exact objectsExamined_miss c hdr _ 0 miss

theorem componentsExamined_miss {p : LfuPred} {b : Bytes} {left i : Nat}
    (miss : componentsOnOst p b left i = false)
    : componentsExamined p b left i
      = ((tableComponents b left (lovCompMdV1Size + i * lovCompMdEntryV1Size)).flatMap
          componentEntries).length := by
  induction left generalizing i with
  | zero => rfl
  | succ left ih =>
      unfold componentsOnOst at miss
      unfold componentsExamined tableComponents
      dsimp only at miss ⊢
      split
      · rfl
      · rename_i fits
        rw [if_neg fits] at miss
        rw [tableEntry_succ]
        cases named : lovComponent? b (lovCompMdV1Size + i * lovCompMdEntryV1Size) with
        | none =>
            rw [named] at miss
            exact ih miss
        | some c =>
            rw [named] at miss
            dsimp only at miss ⊢
            split at miss
            · cases miss
            · rename_i here
              rw [if_neg here, ih miss, componentExamined_miss (Bool.not_eq_true _ ▸ here),
                Option.toList_some, List.singleton_append, List.flatMap_cons,
                List.length_append]

/-- A search that finds nothing has compared every entry of every component. -/
theorem lovExamined_miss {p : LfuPred} {b : Bytes} (miss : lfuLovOnOst (some b) p = false)
    : lovExamined (some b) p = ((lovComponents b).flatMap componentEntries).length := by
  unfold lfuLovOnOst at miss
  unfold lovExamined lovComponents
  dsimp only at miss ⊢
  split
  · rfl
  rename_i long
  rw [if_neg long] at miss
  by_cases composite : lfuLe32 b 0 = lovMagicCompV1
  · simp only [composite, beq_self_eq_true, bne_self_eq_false, if_true, Bool.false_eq_true,
      if_false] at miss ⊢
    split
    · rfl
    · rename_i whole
      rw [if_neg whole] at miss
      exact componentsExamined_miss miss
  · simp only [beq_eq_false_iff_ne.mpr composite, Bool.false_eq_true, if_false] at miss ⊢
    simp [composite, componentExamined_miss miss]

-----------------------------------------------------------------------------------------
-- Both count the same entries
-----------------------------------------------------------------------------------------

/-- A component with a header of its own that is marked as released. -/
def CarriesReleased (c : Bytes) : Prop :=
  lovMdsMdV1Size ≤ c.length
  ∧ (lovHeaderSize? (lfuLe32 c 0)).isSome
  ∧ lfuLe32 c 4 &&& lovPatternFReleased ≠ 0

theorem lovHeaderSize_ge {magic : UInt32} {hdr : Nat} (known : lovHeaderSize? magic = some hdr)
    : lovMdsMdV1Size ≤ hdr := by
  unfold lovHeaderSize? at known
  split at known
  · cases known
    exact Nat.le_refl _
  · split at known
    · cases known
      decide
    · cases known

theorem and_or_eq_zero (bits left right : UInt32)
    : bits &&& (left ||| right) = 0 ↔ bits &&& left = 0 ∧ bits &&& right = 0 := by
  rw [UInt32.and_comm, or_and_mask, UInt32.and_comm left, UInt32.and_comm right,
    UInt32.or_eq_zero_iff]

/-- A count that was cut is the number of entries that are there. -/
theorem countedStripes_toNat {c : Bytes} {hdr : Nat} (fits : hdr ≤ c.length)
    (kept : lfuLe32 c 4 &&& lovPatternFReleased = 0)
    : (countedStripes c hdr).toNat
      = min (lfuLe16 c 28).toNat ((c.length - hdr) / lovOstDataV1Size) := by
  have small := (lfuLe16 c 28).toNat_lt
  unfold countedStripes
  simp only [kept, beq_self_eq_true, Bool.and_true, decide_eq_true_eq]
  split
  · simp only [lovOstDataV1Size] at *
    rw [UInt16.toNat_ofNat', Nat.mod_eq_of_lt (by omega)]
    omega
  · simp only [lovOstDataV1Size] at *
    omega

/-- One component adds as many stripes as it offers entries. -/
theorem lfuDecodeLovOne_entries {t1 : Tier1Lov} {c : Bytes}
    (room : t1.stripeCount.toNat + 65535 < 2 ^ 32) (kept : ¬CarriesReleased c)
    : (lfuDecodeLovOne t1 c).stripeCount.toNat
        = t1.stripeCount.toNat + (componentEntries c).length
      ∧ (componentEntries c).length ≤ 65535 := by
  have way := lfuDecodeLovOne_exit t1 c
  generalize lfuDecodeLovOne t1 c = after at way ⊢
  have silent (empty : componentEntries c = [])
      : t1.stripeCount.toNat = t1.stripeCount.toNat + (componentEntries c).length
        ∧ (componentEntries c).length ≤ 65535 := by
    simp [empty]
  cases way with
  | short cut => exact silent (if_pos cut)
  | strange unknown | foreign unknown =>
      refine silent ?_
      unfold componentEntries
      rw [unknown]
      exact ite_self _
  | cut hdr known cut =>
      refine silent ?_
      unfold componentEntries
      rw [known]
      have none_ : objectEntries c hdr (lfuLe16 c 28).toNat 0 = [] := by
        rw [← List.length_eq_zero_iff, objectEntries_length,
          Nat.sub_eq_zero_of_le (Nat.le_of_lt cut)]
        simp
      simp only [none_, ite_self]
  | data hdr known fits =>
      have long : lovMdsMdV1Size ≤ c.length := Nat.le_trans (lovHeaderSize_ge known) fits
      have live : lfuLe32 c 4 &&& lovPatternFReleased = 0 := by
        by_contra released
        exact kept ⟨long, by simp [known], released⟩
      have entries : componentEntries c
          = if lfuLe32 c 4 &&& lovPatternMdt = 0 then
              objectEntries c hdr (lfuLe16 c 28).toNat 0
            else [] := by
        unfold componentEntries
        rw [if_neg (Nat.not_lt.mpr long), known]
        dsimp only
        by_cases data : lfuLe32 c 4 &&& lovPatternMdt = 0
        · rw [if_neg (by simpa using (and_or_eq_zero _ _ _).mpr ⟨data, live⟩), if_pos data]
        · rw [if_pos (by simpa using fun both => data ((and_or_eq_zero _ _ _).mp both).1),
            if_neg data]
      have counted := countedStripes_toNat fits live
      have small := (countedStripes c hdr).toNat_lt
      rw [entries]
      unfold addComponent
      dsimp only
      by_cases data : lfuLe32 c 4 &&& lovPatternMdt = 0
      · rw [if_pos (by simpa using data), if_pos data, UInt32.toNat_add,
          UInt16.toNat_toUInt32, objectEntries_length, Nat.sub_zero, ← counted]
        exact ⟨Nat.mod_eq_of_lt (by omega), by omega⟩
      · rw [if_neg (by simpa using data), if_neg data]
        simp

theorem foldl_entries (components : List Bytes) (t1 : Tier1Lov)
    (room : t1.stripeCount.toNat + 65535 * components.length < 2 ^ 32)
    (kept : ∀ c ∈ components, ¬CarriesReleased c)
    : (components.foldl lfuDecodeLovOne t1).stripeCount.toNat
      = t1.stripeCount.toNat + (components.flatMap componentEntries).length := by
  induction components generalizing t1 with
  | nil => rfl
  | cons c rest ih =>
      rw [List.length_cons, Nat.mul_succ] at room
      have here : t1.stripeCount.toNat + 65535 < 2 ^ 32 :=
        Nat.lt_of_le_of_lt (by omega) room
      obtain ⟨one, most⟩ := lfuDecodeLovOne_entries here (kept c List.mem_cons_self)
      have later : (lfuDecodeLovOne t1 c).stripeCount.toNat + 65535 * rest.length < 2 ^ 32 :=
        Nat.lt_of_le_of_lt (by omega) room
      rw [List.foldl_cons,
        ih _ later fun other member => kept other (List.mem_cons_of_mem _ member),
        one, List.flatMap_cons, List.length_append, Nat.add_assoc]

/-- Outside released components no pattern says released. -/
theorem foldl_unreleased (components : List Bytes) (t1 : Tier1Lov)
    (kept : ∀ c ∈ components, ¬CarriesReleased c)
    : (components.foldl lfuDecodeLovOne t1).pattern &&& lovPatternFReleased
      = t1.pattern &&& lovPatternFReleased := by
  induction components generalizing t1 with
  | nil => rfl
  | cons c rest ih =>
      rw [List.foldl_cons,
        ih _ fun other member => kept other (List.mem_cons_of_mem _ member)]
      have way := lfuDecodeLovOne_exit t1 c
      generalize lfuDecodeLovOne t1 c = after at way ⊢
      cases way with
      | short | cut | strange => rfl
      | foreign =>
          exact (or_and_mask _ _ _).trans (UInt32.or_zero)
      | data hdr known fits =>
          have live : lfuLe32 c 4 &&& lovPatternFReleased = 0 := by
            by_contra released
            exact kept c List.mem_cons_self
              ⟨Nat.le_trans (lovHeaderSize_ge known) fits, by simp [known], released⟩
          unfold addComponent
          dsimp only
          rw [or_and_mask, live, UInt32.or_zero]

theorem tableComponents_length (b : Bytes) (left off : Nat)
    : (tableComponents b left off).length ≤ left := by
  induction left generalizing off with
  | zero => exact Nat.le_refl 0
  | succ left ih =>
      unfold tableComponents
      split
      · exact Nat.zero_le _
      · rw [List.length_append, Nat.add_comm]
        exact Nat.add_le_add (ih _) (Option.length_toList_le)

theorem lovComponents_length (b : Bytes) : (lovComponents b).length ≤ 65535 := by
  unfold lovComponents
  split
  · exact Nat.zero_le _
  split
  · exact Nat.le_add_left 1 65534
  split
  · exact Nat.zero_le _
  · have declared := (lfuLe16 b 14).toNat_lt
    have named := tableComponents_length b (lfuLe16 b 14).toNat lovCompMdV1Size
    omega

/-- Nothing is counted yet when the decoder turns to the components. -/
theorem lovStart_clear (b : Bytes)
    : (lovStart b).stripeCount = 0
      ∧ (lovStart b).stripeSize = 0
      ∧ (lovStart b).pattern = 0
      ∧ (lovStart b).pool = Vector.replicate 16 0 := by
  unfold lovStart
  split
  · exact ⟨rfl, rfl, rfl, rfl⟩
  dsimp only
  split
  · exact ⟨rfl, rfl, rfl, rfl⟩
  split <;> exact ⟨rfl, rfl, rfl, rfl⟩

/-- Decoding a component leaves what the layout's own header has set. -/
theorem foldl_header (components : List Bytes) (t1 : Tier1Lov)
    : (components.foldl lfuDecodeLovOne t1).haveLov = t1.haveLov
      ∧ (components.foldl lfuDecodeLovOne t1).compCount = t1.compCount
      ∧ (components.foldl lfuDecodeLovOne t1).mirrorCount = t1.mirrorCount := by
  induction components generalizing t1 with
  | nil => exact ⟨rfl, rfl, rfl⟩
  | cons c rest ih =>
      obtain ⟨lov, comps, mirrors⟩ := ih (lfuDecodeLovOne t1 c)
      rw [List.foldl_cons, lov, comps, mirrors]
      have way := lfuDecodeLovOne_exit t1 c
      generalize lfuDecodeLovOne t1 c = after at way ⊢
      cases way <;> exact ⟨rfl, rfl, rfl⟩

/-- A layout with a component is long enough to count as one. -/
theorem lfuDecodeLov_haveLov {b c : Bytes} (member : c ∈ lovComponents b)
    : (lfuDecodeLov {} (some b)).haveLov = true := by
  rw [lfuDecodeLov_fold, (foldl_header _ _).1]
  unfold lovComponents at member
  unfold lovStart
  split at member
  · cases member
  rename_i long
  rw [if_neg long]
  dsimp only
  split
  · rfl
  split <;> rfl

/-- The stripes that are counted are the entries a search can look at. -/
theorem lfuDecodeLov_entries {b : Bytes} (kept : ∀ c ∈ lovComponents b, ¬CarriesReleased c)
    : (lfuDecodeLov {} (some b)).stripeCount.toNat
      = ((lovComponents b).flatMap componentEntries).length := by
  have few := lovComponents_length b
  have start := (lovStart_clear b).1
  rw [lfuDecodeLov_fold, foldl_entries _ _ _ kept, start]
  · exact Nat.zero_add _
  · rw [start]
    exact Nat.lt_of_le_of_lt (Nat.add_le_add_left (Nat.mul_le_mul_left _ few) _) (by decide)

/-- Whatever bytes are supplied as the layout: unless a component is released, the decoded
stripe count is the number of entries a search without a hit compares, and a file that is on
an OST has stripes, so its size is never taken from the inode.
-/
theorem walkers_agree (eas : LfuEas) (b : Bytes) (supplied : eas.lov = some b)
    (kept : ∀ c ∈ lovComponents b, ¬CarriesReleased c)
    : (∀ p, lfuLovOnOst eas.lov p = false
        → (lfuEaDecode (some eas)).stripeCount.toNat = lovExamined eas.lov p)
      ∧ ∀ p, lfuLovOnOst eas.lov p = true
        → 0 < (lfuEaDecode (some eas)).stripeCount
          ∧ ∀ (rec : LfuRec) (wantBlocks : Bool), rec.mode &&& lfuSIfmt = lfuSIfreg
            → lfuResolveSize rec (lfuEaDecode (some eas)) wantBlocks
              = let som := lfuDecodeSom {} eas.som
                if som.haveSom && som.somValid &&& (somFlStrict ||| somFlLazy) != 0 then
                  some (if wantBlocks then som.somBlocks * 512 else som.somSize)
                else
                  none := by
  have counted := lfuDecodeLov_entries kept
  rw [← supplied] at counted
  constructor
  · intro p miss
    rw [supplied] at miss ⊢
    rw [lovExamined_miss miss]
    exact counted
  · intro p hit
    rw [supplied, lfuLovOnOst_any, List.any_eq_true] at hit
    obtain ⟨c, member, names⟩ := hit
    rw [componentOnOst_any, List.any_eq_true] at names
    obtain ⟨entry, offered, _⟩ := names
    have striped : 0 < (lfuDecodeLov {} eas.lov).stripeCount := by
      rw [UInt32.lt_iff_toNat_lt, counted]
      exact List.length_pos_of_mem (List.mem_flatMap.mpr ⟨c, member, offered⟩)
    have present : (lfuDecodeLov {} eas.lov).haveLov = true := by
      rw [supplied]
      exact lfuDecodeLov_haveLov member
    have live : (lfuDecodeLov {} eas.lov).pattern &&& lovPatternFReleased = 0 := by
      rw [supplied, lfuDecodeLov_fold, foldl_unreleased _ _ kept, (lovStart_clear b).2.2.1]
      rfl
    refine ⟨striped, fun rec wantBlocks regular => ?_⟩
    unfold lfuResolveSize lfuEaDecode
    simp only [regular, bne_self_eq_false, Bool.false_eq_true, if_false, live, present,
      Bool.and_false, Bool.true_and, decide_eq_true striped, Bool.not_true]

instance (c : Bytes) : Decidable (CarriesReleased c) := by
  unfold CarriesReleased
  infer_instance

theorem walkers_agree_plain
    : let b : Bytes :=
        [0xd0, 0x0b, 0xd1, 0x0b] ++ List.replicate 24 0 ++ [2, 0] ++ List.replicate 26 0
      let ost (k : UInt32) : LfuPred :=
        {
          field := LfuField.ost.code
          op := LfuOp.list.code
          list := Vector.replicate 64 k
          nlist := 1
        }
      let eas : LfuEas := { lov := some b }
      (∀ c ∈ lovComponents b, ¬CarriesReleased c)
      ∧ (lfuEaDecode (some eas)).stripeCount.toNat = lovExamined eas.lov (ost 5)
      ∧ 0 < (lfuEaDecode (some eas)).stripeCount := by
  intro b ost eas
  have kept : ∀ c ∈ lovComponents b, ¬CarriesReleased c := by decide
  obtain ⟨same, striped⟩ := walkers_agree eas b rfl kept
  exact ⟨kept, same (ost 5) (by decide), (striped (ost 0) (by decide)).1⟩

end LfuScan.Filter
