import LfuScan.Foundations.Memory
import LfuScan.Filter.Compiled
import LfuScan.Lustre.Layout

/-! The evaluator with its memory accesses in view. Each function that follows an offset, a
size or a count taken from an attribute is written a second time over faulting accesses: a
component is a pointer into its attribute and a length, the pool and the name are copied into
their arrays, strings are read up to a terminator, and the stripe count is summed without
wrapping. No access faults, and the answers are the evaluator's.

Offsets are `size_t`: every sum is an offset inside a buffer plus at most `2^32`, so natural
numbers stand for them.
-/

namespace LfuScan.Filter

open LfuScan.Foundations LfuScan.Lustre

namespace Checked

def lfuLe16 (b : Bytes) (off : Nat) : Option UInt16 := do
  let low ← load b off
  let high ← load b (off + 1)
  return low.toUInt16 ||| high.toUInt16 <<< 8

def lfuLe32 (b : Bytes) (off : Nat) : Option UInt32 := do
  let low ← lfuLe16 b off
  let high ← lfuLe16 b (off + 2)
  return low.toUInt32 ||| high.toUInt32 <<< 16

def lfuLe64 (b : Bytes) (off : Nat) : Option UInt64 := do
  let low ← lfuLe32 b off
  let high ← lfuLe32 b (off + 4)
  return low.toUInt64 ||| high.toUInt64 <<< 32

def lfuHost32 (order : ByteOrder) (b : Bytes) (off : Nat) : Option UInt32 := do
  let value ← lfuLe32 b off
  return match order with
    | .little => value
    | .big => bswap32 value

def lfuHost64 (order : ByteOrder) (b : Bytes) (off : Nat) : Option UInt64 := do
  let value ← lfuLe64 b off
  return match order with
    | .little => value
    | .big => bswap64 value

-----------------------------------------------------------------------------------------
-- Decoding
-----------------------------------------------------------------------------------------

def lfuDecodeSom (t1 : Tier1Som) (ea : LfuEa) : Option Tier1Som :=
  match ea with
  | none => some t1
  | some b =>
      if b.length < lustreSomAttrsSize then
        some t1
      else do
        let somValid ← lfuLe16 b 0
        let somSize ← lfuLe64 b 8
        let somBlocks ← lfuLe64 b 16
        return { haveSom := true, somValid, somSize, somBlocks }

/-- The copy of a pool name: the bytes of the attribute, then the terminator. -/
def copyPool (pool : Vector UInt8 16) (b : Bytes) (base : Nat) : Option (Vector UInt8 16) := do
  let name ← loadRange b (base + 32) lovMaxPoolName
  let pool ← storeRange pool name
  store pool lovMaxPoolName 0

/-- One component, given as a pointer into the attribute and a length. -/
def lfuDecodeLovOne (t1 : Tier1Lov) (b : Bytes) (base len : Nat) : Option Tier1Lov :=
  if len < lovMdsMdV1Size then
    some t1
  else do
    let magic ← lfuLe32 b base
    let pattern ← lfuLe32 b (base + 4)
    let stripeSize ← lfuLe32 b (base + 24)
    let stripeCount ← lfuLe16 b (base + 28)
    let rest (t1 : Tier1Lov) (hdr : Nat) : Option Tier1Lov := do
      let stripeCount :=
        if len < hdr + stripeCount.toNat * lovOstDataV1Size
            && pattern &&& lovPatternFReleased == 0 then
          UInt16.ofNat ((len - hdr) / lovOstDataV1Size)
        else
          stripeCount
      let total ←
        if pattern &&& lovPatternMdt == 0 then
          addNoWrap t1.stripeCount stripeCount.toUInt32
        else
          some t1.stripeCount
      return {
        t1 with
        pattern := t1.pattern ||| pattern
        stripeSize := if t1.stripeSize == 0 then stripeSize else t1.stripeSize
        stripeCount := total
      }
    if magic == lovMagicV1 then
      rest t1 lovMdsMdV1Size
    else if magic == lovMagicV3 || magic == lovMagicSpecific then
      if len < lovMdsMdV3Size then
        some t1
      else if t1.pool[0]? == some 0 then do
        let pool ← copyPool t1.pool b base
        rest { t1 with pool } lovMdsMdV3Size
      else
        rest t1 lovMdsMdV3Size
    else if magic == lovMagicForeign then
      some { t1 with pattern := t1.pattern ||| lovPatternForeign, lovMagic := magic }
    else
      some t1

/-- The pointer and the length a table entry names, `none` inside for an entry that is
skipped.
-/
def lovComponent (b : Bytes) (entry : Nat) : Option (Option (Nat × Nat)) := do
  let eoff ← lfuLe32 b (entry + 24)
  let esize ← lfuLe32 b (entry + 28)
  if eoff.toNat ≥ b.length || esize.toNat == 0 || eoff.toNat + esize.toNat > b.length then
    return none
  else
    return some (eoff.toNat, esize.toNat)

def decodeComponents (b : Bytes) : Nat → Nat → Tier1Lov → Option Tier1Lov
  | 0, _, t1 => some t1
  | left + 1, off, t1 =>
      if off + lovCompMdEntryV1Size > b.length then
        some t1
      else do
        match ← lovComponent b off with
        | none => decodeComponents b left (off + lovCompMdEntryV1Size) t1
        | some (eoff, esize) =>
            let t1 ← lfuDecodeLovOne t1 b eoff esize
            decodeComponents b left (off + lovCompMdEntryV1Size) t1

def lfuDecodeLov (t1 : Tier1Lov) (ea : LfuEa) : Option Tier1Lov :=
  match ea with
  | none => some t1
  | some b =>
      if b.length < 4 then
        some t1
      else do
        let magic ← lfuLe32 b 0
        let t1 := { t1 with lovMagic := magic, haveLov := true }
        if magic != lovMagicCompV1 then
          lfuDecodeLovOne { t1 with compCount := 1, mirrorCount := 1 } b 0 b.length
        else if b.length < lovCompMdV1Size then
          some t1
        else do
          let nent ← lfuLe16 b 14
          let nmirror ← lfuLe16 b 16
          decodeComponents b nent.toNat lovCompMdV1Size
            { t1 with compCount := nent.toUInt32, mirrorCount := nmirror.toUInt32 + 1 }

def lfuDecodeLmv (t1 : Tier1Lmv) (ea : LfuEa) : Option Tier1Lmv :=
  match ea with
  | none => some t1
  | some b =>
      if b.length < lmvMdsMdV1Size then
        some t1
      else do
        let magic ← lfuLe32 b 0
        if magic != lmvMagicV1 && magic != lmvMagicStripe then
          some t1
        else do
          let lmvCount ← lfuLe32 b 4
          let lmvHash ← lfuLe32 b 12
          return { haveLmv := true, lmvCount, lmvHash }

def lfuEaDecode (eas : Option LfuEas) : Option LfuTier1 :=
  match eas with
  | none => some {}
  | some eas => do
      let som ← lfuDecodeSom {} eas.som
      let lov ← lfuDecodeLov {} eas.lov
      let lmv ← lfuDecodeLmv {} eas.lmv
      return {
        toTier1Som := som
        toTier1Lov := lov
        toTier1Lmv := lmv
        haveLink := eas.link.isSome
      }

-----------------------------------------------------------------------------------------
-- Comparisons and walks
-----------------------------------------------------------------------------------------

/-- The index list loop: `left` entries from index `i` on. -/
def indexListed (p : LfuPred) (value : UInt64) : Nat → Nat → Option Bool
  | 0, _ => some false
  | left + 1, i => do
      let index ← load p.list.toList i
      if index.toUInt64 == value then return true else indexListed p value left (i + 1)

/-- The comparison; only an index list reads memory beside the value. -/
def lfuCmp (p : LfuPred) (value : UInt64) : Option Bool :=
  if LfuOp.ofCode? p.op = some .list then
    indexListed p value p.nlist.toNat 0
  else
    some (Filter.lfuCmp p value)

def lfuGlob (env : Platform) (p : LfuPred) (str : Bytes) : Option Bool := do
  let pattern ← loadString p.str
  return Filter.lfuGlob env pattern str

def objectsOnOst (p : LfuPred) (b : Bytes) (base clen hdr : Nat) : Nat → Nat → Option Bool
  | 0, _ => some false
  | left + 1, s =>
      let o := hdr + s * lovOstDataV1Size
      if o + lovOstDataV1Size > clen then
        some false
      else do
        let index ← lfuLe32 b (base + (o + 20))
        let listed ← lfuCmp p index.toUInt64
        if listed then return true else objectsOnOst p b base clen hdr left (s + 1)

def componentOnOst (p : LfuPred) (b : Bytes) (base clen : Nat) : Option Bool :=
  if clen < lovMdsMdV1Size then
    some false
  else do
    let cmagic ← lfuLe32 b base
    let pattern ← lfuLe32 b (base + 4)
    let count ← lfuLe16 b (base + 28)
    match lovHeaderSize? cmagic with
    | none => some false
    | some hdr =>
        if pattern &&& (lovPatternMdt ||| lovPatternFReleased) != 0 then
          some false
        else
          objectsOnOst p b base clen hdr count.toNat 0

def componentsOnOst (p : LfuPred) (b : Bytes) : Nat → Nat → Option Bool
  | 0, _ => some false
  | left + 1, i =>
      let eo := lovCompMdV1Size + i * lovCompMdEntryV1Size
      if eo + lovCompMdEntryV1Size > b.length then
        some false
      else do
        match ← lovComponent b eo with
        | none => componentsOnOst p b left (i + 1)
        | some (coff, csize) =>
            let found ← componentOnOst p b coff csize
            if found then return true else componentsOnOst p b left (i + 1)

def lfuLovOnOst (ea : LfuEa) (p : LfuPred) : Option Bool :=
  match ea with
  | none => some false
  | some b =>
      if b.length < 4 then
        some false
      else do
        let magic ← lfuLe32 b 0
        if magic == lovMagicCompV1 then
          if b.length < lovCompMdV1Size then
            some false
          else do
            let nent ← lfuLe16 b 14
            componentsOnOst p b nent.toNat 0
        else
          componentOnOst p b 0 b.length

/-- The name of a link entry: `nlen` bytes copied into `name[256]`, whatever it held, then
terminated and read as a string.
-/
def linkName (stack : Vector UInt8 256) (b : Bytes) (off nlen : Nat) : Option Bytes := do
  let source ← loadRange b off nlen
  let name ← storeRange stack source
  let name ← store name nlen 0
  loadString name

def linkeaLoop (env : Platform) (stack : Vector UInt8 256) (p : LfuPred) (b : Bytes)
    (lehLen : Nat)
    : Nat → Nat → Option Bool
  | 0, _ => some false
  | left + 1, off =>
      if off + linkEaEntrySize > lehLen then
        some false
      else do
        let high ← load b off
        let low ← load b (off + 1)
        let reclen := (high.toUInt16 <<< 8 ||| low.toUInt16).toNat
        if reclen ≤ linkEaEntrySize || off + reclen > lehLen then
          some false
        else do
          let nlen := reclen - linkEaEntrySize
          let nlen := if nlen ≥ 256 then 255 else nlen
          let name ← linkName stack b (off + linkEaEntrySize) nlen
          let found ← lfuGlob env p name
          if found then
            return true
          else
            linkeaLoop env stack p b lehLen left (off + reclen)

def lfuLinkeaName (env : Platform) (stack : Vector UInt8 256) (ea : LfuEa) (p : LfuPred)
    : Option Bool :=
  match ea with
  | none => some false
  | some b =>
      if b.length < linkEaHeaderSize then
        some false
      else do
        let magic ← lfuHost32 env.order b 0
        if magic != linkEaMagic && magic != bswap32 linkEaMagic then
          some false
        else do
          let reccount ← lfuHost32 env.order b 4
          let lehLen ← lfuHost64 env.order b 8
          let swap := magic != linkEaMagic
          let reccount := if swap then bswap32 reccount else reccount
          let lehLen := if swap then bswap64 lehLen else lehLen
          linkeaLoop env stack p b (min lehLen.toNat b.length) reccount.toNat linkEaHeaderSize

/-- `have && compare`: the comparison is made only when the attribute was there. -/
def andAlso (have_ : Bool) (test : Option Bool) : Option Bool :=
  if have_ then test else some false

def tier1Hit (env : Platform) (stack : Vector UInt8 256) (p : LfuPred) (rec : LfuRec)
    (t1 : LfuTier1) (eas : Option LfuEas)
    : Option Tier1Hit :=
  let sized (wantBlocks : Bool) : Option Tier1Hit :=
    match lfuResolveSize rec t1 wantBlocks with
    | none => some .undecided
    | some value => do return .hit (← lfuCmp p value)
  match LfuField.ofCode? p.field with
  | some .size => sized false
  | some .blocks => sized true
  | some .stripeCount => do
      return .hit (← andAlso t1.haveLov (lfuCmp p t1.stripeCount.toUInt64))
  | some .stripeSize => do
      return .hit (← andAlso t1.haveLov (lfuCmp p t1.stripeSize.toUInt64))
  | some .mirrorCount => do
      return .hit (← andAlso t1.haveLov (lfuCmp p t1.mirrorCount.toUInt64))
  | some .compCount => do
      return .hit (← andAlso t1.haveLov (lfuCmp p t1.compCount.toUInt64))
  | some .layout => do return .hit (← andAlso t1.haveLov (lfuCmp p t1.pattern.toUInt64))
  | some .pool => do
      return .hit (← andAlso t1.haveLov (do lfuGlob env p (← loadString t1.pool)))
  | some .ost => do
      return .hit (← eas.elim (some false) (fun eas => lfuLovOnOst eas.lov p))
  | some .mdtCount => do
      return .hit (← andAlso t1.haveLmv (lfuCmp p t1.lmvCount.toUInt64))
  | some .mdtHash => do
      return .hit (← andAlso t1.haveLmv (lfuCmp p (t1.lmvHash &&& lmvHashTypeMask).toUInt64))
  | some .name => do
      return .hit (← eas.elim (some false) (fun eas => lfuLinkeaName env stack eas.link p))
  | _ => some .skip

/-- The predicate loop: `left` predicates from index `i` on. -/
def tier1Loop (env : Platform) (stack : Vector UInt8 256) (f : LfuFilter) (rec : LfuRec)
    (t1 : LfuTier1) (eas : Option LfuEas)
    : Nat → Nat → Bool → Option LfuMatch
  | 0, _, unknown => some (if unknown then .unknown else .matched)
  | left + 1, i, unknown => do
      let p ← load f.p.toList i
      if lfuFieldTier p.field != 1 then
        tier1Loop env stack f rec t1 eas left (i + 1) unknown
      else do
        match ← tier1Hit env stack p rec t1 eas with
        | .skip => tier1Loop env stack f rec t1 eas left (i + 1) unknown
        | .undecided => tier1Loop env stack f rec t1 eas left (i + 1) true
        | .hit found =>
            if !negated p found then
              return .noMatch
            else
              tier1Loop env stack f rec t1 eas left (i + 1) unknown

def lfuFilterTier1 (env : Platform) (stack : Vector UInt8 256) (f : LfuFilter) (rec : LfuRec)
    (t1 : LfuTier1) (eas : Option LfuEas)
    : Option LfuMatch :=
  tier1Loop env stack f rec t1 eas f.n.toNat 0 false

section Loads

variable {b : Bytes} {off : Nat}

theorem load_byteAt (inside : off < b.length) : load b off = some (byteAt b off) := by
  simp [load_inside inside, byteAt, inside]

theorem lfuLe16_inside (inside : off + 2 ≤ b.length)
    : lfuLe16 b off = some (Lustre.lfuLe16 b off) := by
  simp only [lfuLe16, load_byteAt (show off < b.length by omega),
    load_byteAt (show off + 1 < b.length by omega)]
  rfl

theorem lfuLe32_inside (inside : off + 4 ≤ b.length)
    : lfuLe32 b off = some (Lustre.lfuLe32 b off) := by
  simp only [lfuLe32, lfuLe16_inside (show off + 2 ≤ b.length by omega),
    lfuLe16_inside (show off + 2 + 2 ≤ b.length by omega)]
  rfl

theorem lfuLe64_inside (inside : off + 8 ≤ b.length)
    : lfuLe64 b off = some (Lustre.lfuLe64 b off) := by
  simp only [lfuLe64, lfuLe32_inside (show off + 4 ≤ b.length by omega),
    lfuLe32_inside (show off + 4 + 4 ≤ b.length by omega)]
  rfl

theorem lfuHost32_inside (order : ByteOrder) (inside : off + 4 ≤ b.length)
    : lfuHost32 order b off = some (Lustre.lfuHost32 order b off) := by
  rw [lfuHost32, lfuLe32_inside inside]
  cases order <;> rfl

theorem lfuHost64_inside (order : ByteOrder) (inside : off + 8 ≤ b.length)
    : lfuHost64 order b off = some (Lustre.lfuHost64 order b off) := by
  rw [lfuHost64, lfuLe64_inside inside]
  cases order <;> rfl

end Loads

theorem lfuDecodeSom_inside (t1 : Tier1Som) (ea : LfuEa)
    : lfuDecodeSom t1 ea = some (Filter.lfuDecodeSom t1 ea) := by
  unfold lfuDecodeSom Filter.lfuDecodeSom
  cases ea with
  | none => rfl
  | some b =>
      simp only
      split
      · rfl
      · rename_i long
        simp only [lustreSomAttrsSize] at long
        rw [lfuLe16_inside (by omega), lfuLe64_inside (by omega), lfuLe64_inside (by omega)]
        rfl

theorem lfuDecodeLmv_inside (t1 : Tier1Lmv) (ea : LfuEa)
    : lfuDecodeLmv t1 ea = some (Filter.lfuDecodeLmv t1 ea) := by
  unfold lfuDecodeLmv Filter.lfuDecodeLmv
  cases ea with
  | none => rfl
  | some b =>
      simp only
      split
      · rfl
      · rename_i long
        simp only [lmvMdsMdV1Size] at long
        rw [lfuLe32_inside (by omega), lfuLe32_inside (by omega), lfuLe32_inside (by omega)]
        simp only [Option.bind_eq_bind, Option.bind_some]
        split <;> rfl

/-- The pool array after the copy, whatever it held. -/
theorem copyPool_inside (pool : Vector UInt8 16) {b : Bytes} {base len : Nat}
    (inside : base + len ≤ b.length) (long : lovMdsMdV3Size ≤ len)
    : copyPool pool b base = some (poolName (window b base len)) := by
  simp only [lovMdsMdV3Size] at long
  have room : base + 32 + lovMaxPoolName ≤ b.length := by
    simp only [lovMaxPoolName]
    omega
  have count : ((b.drop (base + 32)).take lovMaxPoolName).length = 15 := by
    simp only [List.length_take, List.length_drop, lovMaxPoolName] at room ⊢
    omega
  rw [copyPool, loadRange_inside room]
  simp only [Option.bind_eq_bind, Option.bind_some]
  rw [storeRange, if_pos (by omega), Option.bind_some, store, dif_pos (by decide)]
  refine congrArg some (Vector.ext fun i small => ?_)
  rw [Vector.getElem_set, poolName, Vector.getElem_ofFn, Vector.getElem_ofFn]
  by_cases last : lovMaxPoolName = i
  · rw [if_pos last, if_neg (by simp [last])]
  · have before : i < lovMaxPoolName := by
      simp only [lovMaxPoolName] at last ⊢
      omega
    have there : base + (32 + i) < b.length := by omega
    rw [if_neg last, if_pos before, byteAt_window b (by omega)]
    simp [byteAt, List.getElem?_drop, before, Nat.add_assoc, there]

/-- One component stays inside its window, and adds at most 65535 stripes to the count. -/
theorem lfuDecodeLovOne_inside (t1 : Tier1Lov) {b : Bytes} {base len : Nat}
    (inside : base + len ≤ b.length) (room : t1.stripeCount.toNat + 65535 < 2 ^ 32)
    : lfuDecodeLovOne t1 b base len
        = some (Filter.lfuDecodeLovOne t1 (window b base len)) := by
  unfold lfuDecodeLovOne Filter.lfuDecodeLovOne
  rw [length_window inside]
  split
  · rfl
  · rename_i long
    simp only [lovMdsMdV1Size] at long
    have fits (count : UInt16) : t1.stripeCount.toNat + count.toUInt32.toNat < 2 ^ 32 := by
      have small : count.toUInt32.toNat < 65536 := count.toNat_lt
      omega
    rw [lfuLe32_inside (by omega), lfuLe32_inside (by omega), lfuLe32_inside (by omega),
      lfuLe16_inside (by omega), lfuLe32_window b (by omega), lfuLe32_window b (by omega),
      lfuLe32_window b (by omega), lfuLe16_window b (by omega)]
    simp only [Option.bind_eq_bind, Option.bind_some, addNoWrap_fits (fits _), Nat.add_zero]
    split
    · split <;> rfl
    · split
      · split
        · rfl
        · rename_i wide
          have first : (t1.pool[0]? == some 0) = (t1.pool[0] == 0) := rfl
          rw [copyPool_inside t1.pool inside (Nat.le_of_not_lt wide), first]
          split
          · simp only [Option.bind_some]
            split <;> rfl
          · split <;> rfl
      · split <;> rfl

theorem lfuDecodeLovOne_stripeCount (t1 : Tier1Lov) (b : Bytes)
    : (Filter.lfuDecodeLovOne t1 b).stripeCount.toNat ≤ t1.stripeCount.toNat + 65535 := by
  have summed (count : UInt16)
      : (t1.stripeCount + count.toUInt32).toNat ≤ t1.stripeCount.toNat + 65535 := by
    have small : count.toUInt32.toNat < 65536 := count.toNat_lt
    rw [UInt32.toNat_add]
    have reduced := Nat.mod_le (t1.stripeCount.toNat + count.toUInt32.toNat) (2 ^ 32)
    omega
  have kept : t1.stripeCount.toNat ≤ t1.stripeCount.toNat + 65535 := by omega
  unfold Filter.lfuDecodeLovOne
  split
  · exact kept
  · simp only
    split
    · split
      · exact summed _
      · exact kept
    · split
      · split
        · exact kept
        · split <;> split <;> first | exact summed _ | exact kept
      · split <;> exact kept

/-- A table entry that is not skipped names a window inside the attribute. -/
theorem lovComponent_inside {b : Bytes} {entry : Nat}
    (fits : entry + lovCompMdEntryV1Size ≤ b.length)
    : ∃ range,
        lovComponent b entry = some range
        ∧ lovComponent? b entry = range.map (fun r => window b r.1 r.2)
        ∧ ∀ r ∈ range, r.1 + r.2 ≤ b.length := by
  simp only [lovCompMdEntryV1Size] at fits
  rw [lovComponent, lfuLe32_inside (by omega), lfuLe32_inside (by omega), lovComponent?]
  simp only [Option.bind_eq_bind, Option.bind_some]
  split
  · exact ⟨none, rfl, rfl, by simp⟩
  · rename_i named
    simp only [Bool.or_eq_true, decide_eq_true_eq, not_or, not_lt] at named
    refine ⟨_, rfl, rfl, fun r chosen => ?_⟩
    cases chosen
    exact named.2

/-- The component loop: with `left` entries to go the count has room for all of them. -/
theorem decodeComponents_inside (b : Bytes) (left off : Nat) (t1 : Tier1Lov)
    (room : t1.stripeCount.toNat + 65535 * left < 2 ^ 32)
    : decodeComponents b left off t1 = some (Filter.decodeComponents b left off t1) := by
  induction left generalizing off t1 with
  | zero => rfl
  | succ left ih =>
      rw [Nat.mul_add] at room
      unfold decodeComponents Filter.decodeComponents
      split
      · rfl
      · rename_i fits
        obtain ⟨range, named, same, inside⟩ := lovComponent_inside (Nat.le_of_not_lt fits)
        rw [named, same]
        cases range with
        | none =>
            simp only [Option.bind_eq_bind, Option.bind_some, Option.map_none]
            exact ih _ t1 (Nat.lt_of_le_of_lt (by omega) room)
        | some r =>
            have grown := lfuDecodeLovOne_stripeCount t1 (window b r.1 r.2)
            have one := lfuDecodeLovOne_inside t1 (inside r rfl)
              (Nat.lt_of_le_of_lt (by omega) room)
            simp only [Option.bind_eq_bind, Option.bind_some, Option.map_some, one]
            exact ih _ _ (Nat.lt_of_le_of_lt (by omega) room)

theorem lfuDecodeLov_inside (ea : LfuEa)
    : lfuDecodeLov {} ea = some (Filter.lfuDecodeLov {} ea) := by
  unfold lfuDecodeLov Filter.lfuDecodeLov
  cases ea with
  | none => rfl
  | some b =>
      simp only
      split
      · rfl
      · rename_i long
        rw [lfuLe32_inside (by omega)]
        simp only [Option.bind_eq_bind, Option.bind_some]
        split
        · have plain := lfuDecodeLovOne_inside
            { lovMagic := Lustre.lfuLe32 b 0, haveLov := true, compCount := 1, mirrorCount := 1 }
            (Nat.le_of_eq (Nat.zero_add b.length))
            (show (0 : UInt32).toNat + 65535 < 2 ^ 32 by decide)
          rw [window_all] at plain
          exact plain
        · split
          · rfl
          · rename_i wide
            simp only [lovCompMdV1Size] at wide
            rw [lfuLe16_inside (by omega), lfuLe16_inside (by omega)]
            have small := (Lustre.lfuLe16 b 14).toNat_lt
            exact decodeComponents_inside _ _ _ _ (by simp; omega)

theorem lfuEaDecode_inside (eas : Option LfuEas)
    : lfuEaDecode eas = some (Filter.lfuEaDecode eas) := by
  cases eas with
  | none => rfl
  | some eas =>
      simp only [lfuEaDecode, lfuDecodeSom_inside, lfuDecodeLov_inside, lfuDecodeLmv_inside]
      rfl

section Walks

variable {p : LfuPred}

theorem indexListed_inside (value : UInt64) (left i : Nat) (inside : i + left ≤ 64)
    : indexListed p value left i
        = some (((p.list.toList.drop i).take left).any (fun index => index.toUInt64 == value)) := by
  induction left generalizing i with
  | zero => simp [indexListed]
  | succ left ih =>
      have here : i < p.list.toList.length := by
        rw [Vector.length_toList]
        omega
      rw [indexListed, load_inside here, List.drop_eq_getElem_cons here, List.take_succ_cons,
        List.any_cons]
      simp only [Option.bind_eq_bind, Option.bind_some, List.get_eq_getElem]
      split
      · rename_i same
        rw [same]
        rfl
      · rename_i other
        rw [ih (i + 1) (by omega), Bool.eq_false_of_not_eq_true other, Bool.false_or]

variable (sound : predSound p = true)
include sound

theorem lfuCmp_inside (value : UInt64) : lfuCmp p value = some (Filter.lfuCmp p value) := by
  obtain ⟨_, _, _, lower, upper, _⟩ := (predSound_iff p).mp sound
  unfold lfuCmp
  split
  · rename_i listed
    have inside : 0 + p.nlist.toNat ≤ 64 := by
      simp only [lfuMaxList] at upper
      omega
    rw [indexListed_inside value _ _ inside, Filter.lfuCmp, listed]
    rfl
  · rfl

theorem lfuGlob_inside (env : Platform) (str : Bytes)
    : lfuGlob env p str = some (Filter.lfuGlob env p.pattern str) := by
  obtain ⟨_, _, _, _, _, ended⟩ := (predSound_iff p).mp sound
  rw [lfuGlob, loadString_ended ended]
  rfl

theorem objectsOnOst_inside {b : Bytes} {base clen : Nat} (inside : base + clen ≤ b.length)
    (hdr left s : Nat)
    : objectsOnOst p b base clen hdr left s
        = some (Filter.objectsOnOst p (window b base clen) hdr left s) := by
  induction left generalizing s with
  | zero => rfl
  | succ left ih =>
      unfold objectsOnOst Filter.objectsOnOst
      rw [length_window inside]
      simp only
      split
      · rfl
      · rename_i fits
        have entry : hdr + s * lovOstDataV1Size + 20 + 4 ≤ clen := by
          simp only [lovOstDataV1Size] at fits ⊢
          omega
        rw [lfuLe32_inside (by omega), lfuLe32_window b entry]
        simp only [Option.bind_eq_bind, Option.bind_some, lfuCmp_inside sound, ih]
        split <;> rfl

theorem componentOnOst_inside {b : Bytes} {base clen : Nat} (inside : base + clen ≤ b.length)
    : componentOnOst p b base clen
        = some (Filter.componentOnOst p (window b base clen)) := by
  unfold componentOnOst Filter.componentOnOst
  rw [length_window inside]
  split
  · rfl
  · rename_i long
    simp only [lovMdsMdV1Size] at long
    rw [lfuLe32_inside (by omega), lfuLe32_inside (by omega), lfuLe16_inside (by omega),
      lfuLe32_window b (by omega), lfuLe32_window b (by omega), lfuLe16_window b (by omega)]
    simp only [Option.bind_eq_bind, Option.bind_some, Nat.add_zero,
      objectsOnOst_inside sound inside]
    cases lovHeaderSize? (Lustre.lfuLe32 b base) with
    | none => rfl
    | some hdr =>
        simp only
        split <;> rfl

theorem componentsOnOst_inside (b : Bytes) (left i : Nat)
    : componentsOnOst p b left i = some (Filter.componentsOnOst p b left i) := by
  induction left generalizing i with
  | zero => rfl
  | succ left ih =>
      unfold componentsOnOst Filter.componentsOnOst
      simp only
      split
      · rfl
      · rename_i fits
        obtain ⟨range, named, same, inside⟩ := lovComponent_inside (Nat.le_of_not_lt fits)
        rw [named, same]
        cases range with
        | none =>
            simp only [Option.bind_eq_bind, Option.bind_some, Option.map_none]
            exact ih _
        | some r =>
            simp only [Option.bind_eq_bind, Option.bind_some, Option.map_some,
              componentOnOst_inside sound (inside r rfl), ih]
            split <;> rfl

theorem lfuLovOnOst_inside (ea : LfuEa)
    : lfuLovOnOst ea p = some (Filter.lfuLovOnOst ea p) := by
  unfold lfuLovOnOst Filter.lfuLovOnOst
  cases ea with
  | none => rfl
  | some b =>
      have plain := componentOnOst_inside sound (Nat.le_of_eq (Nat.zero_add b.length))
      rw [window_all] at plain
      simp only
      split
      · rfl
      · rename_i long
        rw [lfuLe32_inside (by omega)]
        simp only [Option.bind_eq_bind, Option.bind_some, plain]
        split
        · split
          · rfl
          · rename_i wide
            simp only [lovCompMdV1Size] at wide
            rw [lfuLe16_inside (by omega)]
            exact componentsOnOst_inside sound b _ 0
        · rfl

omit sound in
/-- The name is terminated inside its array, so only the bytes just copied are compared. -/
theorem linkName_inside (stack : Vector UInt8 256) {b : Bytes} {off nlen : Nat}
    (inside : off + nlen ≤ b.length) (short : nlen < 256)
    : linkName stack b off nlen = some (((b.drop off).take nlen).takeWhile (· != 0)) := by
  have count : ((b.drop off).take nlen).length = nlen := length_window inside
  obtain ⟨copied, terminated, wrote, ended, read⟩ :=
    loadString_written stack (show ((b.drop off).take nlen).length < 256 by omega)
  rw [count] at ended
  simp only [linkName, loadRange_inside inside, wrote, ended, read, Option.bind_eq_bind,
    Option.bind_some]

theorem linkeaLoop_inside (env : Platform) (stack : Vector UInt8 256) {b : Bytes} {lehLen : Nat}
    (clamped : lehLen ≤ b.length) (left off : Nat)
    : linkeaLoop env stack p b lehLen left off
        = some (Filter.linkeaLoop env p b lehLen left off) := by
  induction left generalizing off with
  | zero => rfl
  | succ left ih =>
      unfold linkeaLoop Filter.linkeaLoop
      split
      · rfl
      · rename_i fits
        simp only [linkEaEntrySize] at fits
        rw [load_byteAt (show off < b.length by omega),
          load_byteAt (show off + 1 < b.length by omega)]
        simp only [Option.bind_eq_bind, Option.bind_some]
        generalize ((byteAt b off).toUInt16 <<< 8 ||| (byteAt b (off + 1)).toUInt16).toNat = reclen
        split
        · rfl
        · rename_i named
          simp only [Bool.or_eq_true, decide_eq_true_eq, not_or, linkEaEntrySize] at named
          -- the cut at the size of the array, as a minimum
          have cut (nlen : Nat) : (if nlen ≥ 256 then 255 else nlen) = min nlen 255 := by
            split <;> omega
          rw [cut, linkName_inside stack (by simp only [linkEaEntrySize]; omega) (by omega)]
          simp only [Option.bind_some, lfuGlob_inside sound, ih]
          split <;> rfl

theorem lfuLinkeaName_inside (env : Platform) (stack : Vector UInt8 256) (ea : LfuEa)
    : lfuLinkeaName env stack ea p = some (Filter.lfuLinkeaName env ea p) := by
  unfold lfuLinkeaName Filter.lfuLinkeaName
  cases ea with
  | none => rfl
  | some b =>
      simp only
      split
      · rfl
      · rename_i long
        simp only [linkEaHeaderSize] at long
        rw [lfuHost32_inside _ (by omega), lfuHost32_inside _ (by omega),
          lfuHost64_inside _ (by omega)]
        simp only [Option.bind_eq_bind, Option.bind_some,
          linkeaLoop_inside sound env stack (Nat.min_le_right _ b.length)]
        by_cases native : Lustre.lfuHost32 env.order b 0 = linkEaMagic
        · simp [native]
        · by_cases swapped : Lustre.lfuHost32 env.order b 0 = bswap32 linkEaMagic
          · have foreign : bswap32 linkEaMagic ≠ linkEaMagic := by decide
            simp [swapped, foreign]
          · simp [native, swapped]

omit sound in
theorem andAlso_some (have_ test : Bool) : andAlso have_ (some test) = some (have_ && test) := by
  cases have_ <;> rfl

theorem tier1Hit_inside (env : Platform) (stack : Vector UInt8 256) (rec : LfuRec)
    {t1 : LfuTier1} (ended : 0 ∈ t1.pool.toList) (eas : Option LfuEas)
    : tier1Hit env stack p rec t1 eas = some (Filter.tier1Hit env p rec t1 eas) := by
  have ost : eas.elim (some false) (fun eas => lfuLovOnOst eas.lov p)
      = some (eas.any (fun eas => Filter.lfuLovOnOst eas.lov p)) := by
    cases eas with
    | none => rfl
    | some eas => exact lfuLovOnOst_inside sound eas.lov
  have name : eas.elim (some false) (fun eas => lfuLinkeaName env stack eas.link p)
      = some (eas.any (fun eas => Filter.lfuLinkeaName env eas.link p)) := by
    cases eas with
    | none => rfl
    | some eas => exact lfuLinkeaName_inside sound env stack eas.link
  unfold tier1Hit Filter.tier1Hit
  simp only [lfuCmp_inside sound, loadString_ended ended, lfuGlob_inside sound, andAlso_some, ost,
    name, Option.bind_eq_bind, Option.bind_some, Option.pure_def]
  cases LfuField.ofCode? p.field with
  | none => rfl
  | some field =>
      cases field with
      | size => cases lfuResolveSize rec t1 false <;> rfl
      | blocks => cases lfuResolveSize rec t1 true <;> rfl
      | _ => rfl

end Walks

/-- The predicate loop reads the predicates in use, in order. -/
theorem tier1Loop_inside (env : Platform) (stack : Vector UInt8 256) (f : LfuFilter)
    (rec : LfuRec) {t1 : LfuTier1} (ended : 0 ∈ t1.pool.toList) (eas : Option LfuEas)
    (left i : Nat) (unknown : Bool) (inside : i + left ≤ 32)
    (sound : ∀ p ∈ (f.p.toList.drop i).take left, predSound p = true)
    : tier1Loop env stack f rec t1 eas left i unknown
        = some (Filter.tier1Loop env rec t1 eas ((f.p.toList.drop i).take left) unknown) := by
  induction left generalizing i unknown with
  | zero => rfl
  | succ left ih =>
      have here : i < f.p.toList.length := by
        rw [Vector.length_toList]
        omega
      rw [List.drop_eq_getElem_cons here, List.take_succ_cons] at sound ⊢
      have later := fun unknown =>
        ih (i + 1) unknown (by omega) (fun p used => sound p (List.mem_cons_of_mem _ used))
      have first := tier1Hit_inside (sound _ List.mem_cons_self) env stack rec ended eas
      rw [tier1Loop, load_inside here, Filter.tier1Loop]
      simp only [Option.bind_eq_bind, Option.bind_some, List.get_eq_getElem, first, later]
      split
      · rfl
      · cases Filter.tier1Hit env f.p.toList[i] rec t1 eas with
        | skip => rfl
        | undecided => rfl
        | hit found =>
            simp only
            split <;> rfl

end Checked

/-- Every attribute string and every accepted filter: decoding and evaluation make no access
outside the attribute, the pool and name arrays or the filter, find every string terminated,
sum the stripes without wrapping, and give the evaluator's answer.
-/
theorem evaluator_stays_inside (env : Platform) (stack : Vector UInt8 256) (f : LfuFilter)
    (rec : LfuRec) (eas : Option LfuEas) (accepted : lfuFilterValidate f = 0)
    : Checked.lfuEaDecode eas = some (lfuEaDecode eas)
      ∧ (lfuEaDecode eas).PoolEnded
      ∧ Checked.lfuFilterTier1 env stack f rec (lfuEaDecode eas) eas
          = some (lfuFilterTier1 env f rec (lfuEaDecode eas) eas) := by
  have pool := (lfuEaDecode_decoded eas).pool
  have ended : (0 : UInt8) ∈ (lfuEaDecode eas).pool.toList := by
    rw [← (show (lfuEaDecode eas).pool[15] = 0 from pool)]
    exact Vector.mem_toList_iff.mpr (Vector.getElem_mem (by decide))
  refine ⟨Checked.lfuEaDecode_inside eas, pool, ?_⟩
  unfold lfuFilterValidate at accepted
  split at accepted
  · cases accepted
  · rename_i inside
    simp only [Bool.or_eq_true, decide_eq_true_eq, not_or] at inside
    have bound : 0 + f.n.toNat ≤ lfuMaxPred := by omega
    split at accepted
    · cases accepted
    · split at accepted
      · rename_i sound
        exact Checked.tier1Loop_inside env stack f rec ended eas _ _ _ bound
          (fun p used => List.all_eq_true.mp sound p used)
      · cases accepted

/-- A composite layout with one entry, whose offset and size reach past the end. -/
def badEntry : Bytes :=
  [0xD0, 0x0B, 0xD6, 0x0B] ++ List.replicate 10 0 ++ [1, 0] ++ List.replicate 40 0
    ++ [80, 0, 0, 0, 64, 0, 0, 0] ++ List.replicate 16 0

/-- `--ost 3`. -/
def onOst3 : LfuFilter :=
  {
    p := (Vector.replicate 32 {}).set 0
      {
        field := LfuField.ost.code
        op := LfuOp.list.code
        list := (Vector.replicate 64 0).set 0 3
        nlist := 1
      }
    n := 1
    needs := XattrName.lov.need
  }

/-- A composite whose only entry points past its end, asked for OST 3. -/
theorem evaluator_stays_inside_badEntry
    : ∃ f : LfuFilter,
        lfuFilterValidate f = 0
        ∧ Checked.lfuFilterTier1 exactNames (Vector.replicate 256 65) f {}
            (lfuEaDecode (some { lov := some badEntry })) (some { lov := some badEntry })
          = some .noMatch := by
  refine ⟨onOst3, by decide, ?_⟩
  rw [(evaluator_stays_inside exactNames (Vector.replicate 256 65) onOst3 {}
    (some { lov := some badEntry }) (by decide)).2.2]
  decide

end LfuScan.Filter
