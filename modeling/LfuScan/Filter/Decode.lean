import LfuScan.Filter.Predicate

/-! Decoding the demanded attributes. Every decoder works on its own group of fields of
`struct lfu_tier1`, so what one attribute holds cannot reach the values of another.
-/

namespace LfuScan.Filter

open LfuScan.Lustre

def lfuDecodeSom (t1 : Tier1Som) (ea : LfuEa) : Tier1Som :=
  match ea with
  | none => t1
  | some b =>
      if b.length < lustreSomAttrsSize then
        t1
      else
        {
          haveSom := true
          somValid := lfuLe16 b 0
          somSize := lfuLe64 b 8
          somBlocks := lfuLe64 b 16
        }

/-- The header size of a component with object entries, by its magic. -/
def lovHeaderSize? (magic : UInt32) : Option Nat :=
  if magic == lovMagicV1 then
    some lovMdsMdV1Size
  else if magic == lovMagicV3 || magic == lovMagicSpecific then
    some lovMdsMdV3Size
  else
    none

/-- The pool name of a v3 component, with the terminator the decoder adds. -/
def poolName (b : Bytes) : Vector UInt8 16 :=
  Vector.ofFn (fun index => if index.val < lovMaxPoolName then byteAt b (32 + index) else 0)

/-- One component: a plain v1/v3 attribute, or one entry of a composite. Sums into the
accumulator rather than overwriting.
-/
def lfuDecodeLovOne (t1 : Tier1Lov) (b : Bytes) : Tier1Lov :=
  if b.length < lovMdsMdV1Size then
    t1
  else
    let magic := lfuLe32 b 0
    let pattern := lfuLe32 b 4
    let stripeSize := lfuLe32 b 24
    let stripeCount := lfuLe16 b 28
    -- what follows the switch, once it has chosen a header size
    let rest (t1 : Tier1Lov) (hdr : Nat) : Tier1Lov :=
      let stripeCount :=
        if b.length < hdr + stripeCount.toNat * lovOstDataV1Size
            && pattern &&& lovPatternFReleased == 0 then
          UInt16.ofNat ((b.length - hdr) / lovOstDataV1Size)
        else
          stripeCount
      {
        t1 with
        pattern := t1.pattern ||| pattern
        stripeSize := if t1.stripeSize == 0 then stripeSize else t1.stripeSize
        stripeCount :=
          if pattern &&& lovPatternMdt == 0 then
            t1.stripeCount + stripeCount.toUInt32
          else
            t1.stripeCount
      }
    if magic == lovMagicV1 then
      rest t1 lovMdsMdV1Size
    else if magic == lovMagicV3 || magic == lovMagicSpecific then
      if b.length < lovMdsMdV3Size then
        t1
      else if t1.pool[0] == 0 then
        rest { t1 with pool := poolName b } lovMdsMdV3Size
      else
        rest t1 lovMdsMdV3Size
    else if magic == lovMagicForeign then
      { t1 with pattern := t1.pattern ||| lovPatternForeign, lovMagic := magic }
    else
      t1

/-- The component a table entry points at: `none` when its range is not inside the
attribute and the entry is skipped.
-/
def lovComponent? (b : Bytes) (entry : Nat) : Option Bytes :=
  let eoff := (lfuLe32 b (entry + 24)).toNat
  let esize := (lfuLe32 b (entry + 28)).toNat
  if eoff ≥ b.length || esize == 0 || eoff + esize > b.length then
    none
  else
    some ((b.drop eoff).take esize)

/-- The component loop: `left` entries from table offset `off` on. -/
def decodeComponents (b : Bytes) : Nat → Nat → Tier1Lov → Tier1Lov
  | 0, _, t1 => t1
  | left + 1, off, t1 =>
      if off + lovCompMdEntryV1Size > b.length then
        t1
      else
        match lovComponent? b off with
        | none => decodeComponents b left (off + lovCompMdEntryV1Size) t1
        | some component =>
            decodeComponents b left (off + lovCompMdEntryV1Size)
              (lfuDecodeLovOne t1 component)

def lfuDecodeLov (t1 : Tier1Lov) (ea : LfuEa) : Tier1Lov :=
  match ea with
  | none => t1
  | some b =>
      if b.length < 4 then
        t1
      else
        let magic := lfuLe32 b 0
        let t1 := { t1 with lovMagic := magic, haveLov := true }
        if magic != lovMagicCompV1 then
          lfuDecodeLovOne { t1 with compCount := 1, mirrorCount := 1 } b
        else if b.length < lovCompMdV1Size then
          t1
        else
          let nent := lfuLe16 b 14
          let nmirror := lfuLe16 b 16
          decodeComponents b nent.toNat lovCompMdV1Size
            { t1 with compCount := nent.toUInt32, mirrorCount := nmirror.toUInt32 + 1 }

def lfuDecodeLmv (t1 : Tier1Lmv) (ea : LfuEa) : Tier1Lmv :=
  match ea with
  | none => t1
  | some b =>
      if b.length < lmvMdsMdV1Size then
        t1
      else
        let magic := lfuLe32 b 0
        if magic != lmvMagicV1 && magic != lmvMagicStripe then
          t1
        else
          { haveLmv := true, lmvCount := lfuLe32 b 4, lmvHash := lfuLe32 b 12 }

/-- Decode whatever the backend supplied; a NULL `eas` leaves everything clear. -/
def lfuEaDecode (eas : Option LfuEas) : LfuTier1 :=
  match eas with
  | none => {}
  | some eas =>
      {
        toTier1Som := lfuDecodeSom {} eas.som
        toTier1Lov := lfuDecodeLov {} eas.lov
        toTier1Lmv := lfuDecodeLmv {} eas.lmv
        haveLink := eas.link.isSome
      }

/-- The stripe count of a component, cut to the object entries that are there. -/
def countedStripes (c : Bytes) (hdr : Nat) : UInt16 :=
  let stripeCount := lfuLe16 c 28
  if c.length < hdr + stripeCount.toNat * lovOstDataV1Size
      && lfuLe32 c 4 &&& lovPatternFReleased == 0 then
    UInt16.ofNat ((c.length - hdr) / lovOstDataV1Size)
  else
    stripeCount

/-- The pool name after a component: the first one that is not empty is kept. -/
def componentPool (t1 : Tier1Lov) (c : Bytes) (hdr : Nat) : Vector UInt8 16 :=
  if hdr == lovMdsMdV3Size && t1.pool[0] == 0 then poolName c else t1.pool

/-- A component with a known header that fits, summed into the accumulator. -/
def addComponent (t1 : Tier1Lov) (c : Bytes) (hdr : Nat) : Tier1Lov :=
  {
    t1 with
    pool := componentPool t1 c hdr
    pattern := t1.pattern ||| lfuLe32 c 4
    stripeSize := if t1.stripeSize == 0 then lfuLe32 c 24 else t1.stripeSize
    stripeCount :=
      if lfuLe32 c 4 &&& lovPatternMdt == 0 then
        t1.stripeCount + (countedStripes c hdr).toUInt32
      else
        t1.stripeCount
  }

/-- The pool name as the glob sees it. -/
def Tier1Lov.poolText (t1 : Tier1Lov) : Bytes := t1.pool.toList.takeWhile (· != 0)

theorem poolText_eq_nil (t1 : Tier1Lov) : t1.poolText = [] ↔ t1.pool[0] = 0 := by
  unfold Tier1Lov.poolText
  have first : t1.pool.toList[0]? = some t1.pool[0] := by simp
  cases whole : t1.pool.toList with
  | nil =>
      rw [whole] at first
      cases first
  | cons head rest =>
      rw [whole, List.getElem?_cons_zero, Option.some.injEq] at first
      rw [← first, List.takeWhile_cons]
      by_cases ended : head = 0 <;> simp [ended]

/-- The ways out of `lfu_decode_lov_one`. -/
inductive LovOneExit (t1 : Tier1Lov) (c : Bytes) : Tier1Lov → Prop
  | short (cut : c.length < lovMdsMdV1Size) : LovOneExit t1 c t1
  | cut (hdr : Nat) (known : lovHeaderSize? (lfuLe32 c 0) = some hdr) (cut : c.length < hdr)
    : LovOneExit t1 c t1
  | strange (unknown : lovHeaderSize? (lfuLe32 c 0) = none) : LovOneExit t1 c t1
  | foreign (unknown : lovHeaderSize? (lfuLe32 c 0) = none)
    : LovOneExit t1 c
        { t1 with pattern := t1.pattern ||| lovPatternForeign, lovMagic := lfuLe32 c 0 }
  | data (hdr : Nat) (known : lovHeaderSize? (lfuLe32 c 0) = some hdr) (fits : hdr ≤ c.length)
    : LovOneExit t1 c (addComponent t1 c hdr)

theorem lfuDecodeLovOne_exit (t1 : Tier1Lov) (c : Bytes)
    : LovOneExit t1 c (lfuDecodeLovOne t1 c) := by
  unfold lfuDecodeLovOne
  split
  · rename_i cut
    exact .short cut
  rename_i long
  dsimp only
  split
  · rename_i v1
    have known : lovHeaderSize? (lfuLe32 c 0) = some lovMdsMdV1Size := by
      rw [lovHeaderSize?, if_pos v1]
    exact .data lovMdsMdV1Size known (Nat.not_lt.mp long)
  rename_i notV1
  split
  · rename_i v3
    have known : lovHeaderSize? (lfuLe32 c 0) = some lovMdsMdV3Size := by
      rw [lovHeaderSize?, if_neg notV1, if_pos v3]
    split
    · rename_i cut
      exact .cut lovMdsMdV3Size known cut
    · rename_i fits
      have added : LovOneExit t1 c (addComponent t1 c lovMdsMdV3Size) :=
        .data lovMdsMdV3Size known (Nat.not_lt.mp fits)
      split
      · rename_i unnamed
        have pool : componentPool t1 c lovMdsMdV3Size = poolName c :=
          if_pos (by simpa using unnamed)
        rw [addComponent, pool] at added
        exact added
      · rename_i already
        have pool : componentPool t1 c lovMdsMdV3Size = t1.pool :=
          if_neg (by simpa using already)
        rw [addComponent, pool] at added
        exact added
  · rename_i notV3
    have unknown : lovHeaderSize? (lfuLe32 c 0) = none := by
      rw [lovHeaderSize?, if_neg notV1, if_neg notV3]
    split
    · exact .foreign unknown
    · exact .strange unknown

/-- The pool name ends inside its array. -/
def Tier1Lov.PoolEnded (t1 : Tier1Lov) : Prop := t1.pool[15] = 0

theorem lfuDecodeLovOne_pool {t1 : Tier1Lov} (b : Bytes) (ended : t1.PoolEnded)
    : (lfuDecodeLovOne t1 b).PoolEnded := by
  have named : (poolName b)[15] = 0 := by simp [poolName, lovMaxPoolName]
  have way := lfuDecodeLovOne_exit t1 b
  generalize lfuDecodeLovOne t1 b = after at way ⊢
  cases way with
  | short | cut | strange | foreign => exact ended
  | data hdr =>
      unfold Tier1Lov.PoolEnded addComponent componentPool
      dsimp only
      split
      · exact named
      · exact ended

theorem decodeComponents_pool (b : Bytes) (left off : Nat) {t1 : Tier1Lov}
    (ended : t1.PoolEnded)
    : (decodeComponents b left off t1).PoolEnded := by
  induction left generalizing off t1 with
  | zero => exact ended
  | succ left ih =>
      unfold decodeComponents
      split
      · exact ended
      · split
        · exact ih _ ended
        · exact ih _ (lfuDecodeLovOne_pool _ ended)

theorem lfuDecodeLov_pool (ea : LfuEa) : (lfuDecodeLov {} ea).PoolEnded := by
  have fresh : ({} : Tier1Lov).PoolEnded := by
    unfold Tier1Lov.PoolEnded
    decide
  unfold lfuDecodeLov
  split
  · exact fresh
  · split
    · exact fresh
    · simp only
      split
      · exact lfuDecodeLovOne_pool _ fresh
      · split
        · exact fresh
        · exact decodeComponents_pool _ _ _ fresh

/-- Decoded attributes: a group whose attribute was absent is clear, and the pool name ends.
-/
structure Decoded (t1 : LfuTier1) : Prop where
  som : t1.haveSom = false → t1.toTier1Som = {}
  lmv : t1.haveLmv = false → t1.toTier1Lmv = {}
  pool : t1.PoolEnded

theorem lfuEaDecode_decoded (eas : Option LfuEas) : Decoded (lfuEaDecode eas) := by
  cases eas with
  | none => exact ⟨fun _ => rfl, fun _ => rfl, lfuDecodeLov_pool none⟩
  | some eas =>
      refine ⟨?_, ?_, lfuDecodeLov_pool eas.lov⟩
      · intro absent
        simp only [lfuEaDecode, lfuDecodeSom] at absent ⊢
        split at absent
        · rfl
        · split at absent
          · rename_i short
            exact if_pos short
          · cases absent
      · intro absent
        simp only [lfuEaDecode, lfuDecodeLmv] at absent ⊢
        split at absent
        · rfl
        · split at absent
          · rename_i short
            exact if_pos short
          · split at absent
            · rename_i long foreign
              rw [if_neg long, if_pos foreign]
            · cases absent

end LfuScan.Filter
