import LfuScan.Filter.Bounds
import LfuScan.Lustre.ByteOrder

/-! `trusted.lmv` as a scan of a target hands it over. The stripe of a directory is converted
into a buffer that serves one object after the other, so what a consumer may read of it has to
come from this object alone.
-/

namespace LfuScan.ScanDevice

open LfuScan.Lustre LfuScan.Foundations LfuScan.Filter

def lmvMagicForeign : UInt32 := 0x0CD50CD0

/-- `struct lmv_user_md`, and one entry of its `lum_objects`. -/
def lmvUserMdSize : Nat := 48
def lmvUserMdsDataSize : Nat := 24

/-- `offsetof(struct lmv_foreign_md, lfm_value)`. -/
def lfmValue : Nat := 16

/-- `SCAN_LMV_BUF`, for the largest number of stripes a directory can have. -/
def scanLmvBuf (maxStripes : Nat) : Nat := lmvUserMdSize + maxStripes * lmvUserMdsDataSize

/-- Four numbers stored as the header of a structure. -/
def storeHeader (order : ByteOrder) (out : Bytes) (v w x y : UInt32) : Option Bytes := do
  let out ← storeList out 0 (store32 order v)
  let out ← storeList out 4 (store32 order w)
  let out ← storeList out 8 (store32 order x)
  storeList out 12 (store32 order y)

/-- A field converted where it stands. -/
def fieldToHost (order : ByteOrder) (out : Bytes) (off : Nat) : Option (UInt32 × Bytes) := do
  let value ← Checked.lfuLe32 out off
  let out ← storeList out off (store32 order value)
  return (value, out)

/-- A foreign stripe is copied, its header put in host order. -/
def foreignToUser (order : ByteOrder) (magic : UInt32) (disk out : Bytes)
    : Option (Nat × Bytes) :=
  if disk.length < lfmValue || disk.length > out.length then
    some (0, out)
  else do
    let out ← storeList out 0 (← loadRange disk 0 disk.length)
    let out ← storeList out 0 (store32 order magic)
    let (lfmLength, out) ← fieldToHost order out 4
    let (_, out) ← fieldToHost order out 8
    let (_, out) ← fieldToHost order out 12
    if lfmLength.toNat > disk.length - lfmValue then
      return (0, out)
    else
      return (disk.length, out)

/-- The fields a striped directory has in both forms, and its pool name terminated. -/
def fillLmvUser (order : ByteOrder) (disk : Bytes) (stripes : UInt32) (out : Bytes)
    : Option Bytes := do
  let masterMdtIndex ← Checked.lfuLe32 disk 8
  let hashType ← Checked.lfuLe32 disk 12
  let out ← storeHeader order out lmvMagicV1 stripes masterMdtIndex hashType
  let out ← storeList out 32 (← loadRange disk 40 16)
  storeList out 47 [0]

/-- The bytes written, and the buffer after that; 0 for a value no consumer could read. -/
def scanLmvToUser (order : ByteOrder) (maxStripes : Nat) (disk out : Bytes)
    : Option (Nat × Bytes) :=
  if disk.length < 4 then
    some (0, out)
  else do
    let magic ← Checked.lfuLe32 disk 0
    if magic == lmvMagicForeign then
      foreignToUser order magic disk out
    else if magic ≠ lmvMagicV1 || disk.length < lmvMdsMdV1Size
        || out.length < lmvUserMdSize then
      return (0, out)
    else
      let stripes ← Checked.lfuLe32 disk 4
      if stripes.toNat > maxStripes then
        return (0, out)
      else
        let room := (out.length - lmvUserMdSize) / lmvUserMdsDataSize
        let cleared := lmvUserMdSize + min stripes.toNat room * lmvUserMdsDataSize
        let out ← storeList out 0 (List.replicate cleared 0)
        let out ← fillLmvUser order disk stripes out
        return (lmvUserMdSize, out)

def scanLmvIsShard (disk : Bytes) : Option Bool :=
  if disk.length < 4 then
    some false
  else do
    let magic ← Checked.lfuLe32 disk 0
    return magic == lmvMagicStripe

def scanLmvIsStriped (disk : Option Bytes) : Option Bool :=
  match disk with
  | none => some false
  | some disk =>
      if disk.length < 4 then
        some false
      else do
        let magic ← Checked.lfuLe32 disk 0
        return magic == lmvMagicV1

/-- The part of the buffer a consumer reads: a foreign value by its size, and otherwise the
header with as many entries as it claims.
-/
def lmvClaimed (order : ByteOrder) (out : Bytes) (ulen : Nat) : Bytes :=
  if lfuHost32 order out 0 == lmvMagicForeign then
    out.take ulen
  else
    out.take (lmvUserMdSize + (lfuHost32 order out 4).toNat * lmvUserMdsDataSize)

/-- The header of a striped directory as the record has it. -/
def lmvUserMd (order : ByteOrder) (disk : Bytes) : Bytes :=
  store32 order lmvMagicV1 ++ (store32 order (lfuLe32 disk 4) ++ (store32 order (lfuLe32 disk 8)
    ++ (store32 order (lfuLe32 disk 12) ++ (List.replicate 16 0
    ++ ((disk.drop 40).take 15 ++ [0])))))

/-- A foreign value as the record has it. -/
def lmvForeignMd (order : ByteOrder) (disk : Bytes) : Bytes :=
  store32 order lmvMagicForeign ++ (store32 order (lfuLe32 disk 4)
    ++ (store32 order (lfuLe32 disk 8) ++ (store32 order (lfuLe32 disk 12) ++ disk.drop 16)))

section Converted

variable {disk out : Bytes} {maxStripes : Nat} (order : ByteOrder)

theorem storeHeader_eq (out : Bytes) (v w x y : UInt32)
    : storeHeader order out v w x y
      = storeList out 0
          (store32 order v ++ (store32 order w ++ (store32 order x ++ store32 order y))) := by
  have third (out : Bytes) := storeList_append out 8 (store32 order x) (store32 order y)
  have second (out : Bytes) :=
    storeList_append out 4 (store32 order w) (store32 order x ++ store32 order y)
  have first :=
    storeList_append out 0 (store32 order v)
      (store32 order w ++ (store32 order x ++ store32 order y))
  simp only [length_store32, Nat.zero_add] at first second third
  simp only [storeHeader, Option.bind_eq_bind, ← first, ← second, ← third]

/-- The header, the pool and its terminator, stored into bytes that were cleared. -/
theorem fillLmvUser_cleared (long : lmvMdsMdV1Size ≤ disk.length) (back : Bytes)
    : fillLmvUser order disk (lfuLe32 disk 4) (List.replicate lmvUserMdSize 0 ++ back)
      = some (lmvUserMd order disk ++ back) := by
  simp only [lmvMdsMdV1Size] at long
  have index := Checked.lfuLe32_inside (show 8 + 4 ≤ disk.length by omega)
  have hash := Checked.lfuLe32_inside (show 12 + 4 ≤ disk.length by omega)
  obtain ⟨last, pool⟩ : ∃ last, (disk.drop 40).take 16 = (disk.drop 40).take 15 ++ [last] := by
    refine ⟨disk.get ⟨55, by omega⟩, ?_⟩
    rw [List.take_add_one]
    simp [show 55 < disk.length by omega]
  have text : ((disk.drop 40).take 15).length = 15 := by
    simp only [List.length_take, List.length_drop]
    omega
  have cleared
      : List.replicate lmvUserMdSize (0 : UInt8) ++ back
        = List.replicate 16 0 ++ (List.replicate 16 0 ++ (List.replicate 16 0 ++ back)) := by
    simp only [← List.append_assoc, List.replicate_append_replicate]
    rfl
  unfold fillLmvUser lmvUserMd
  rw [index, hash, loadRange_inside (by omega), pool, cleared]
  simp only [Option.bind_eq_bind, Option.bind_some]
  rw [storeHeader_eq, storeList_head (by simp), Option.bind_some]
  generalize header : store32 order lmvMagicV1 ++ (store32 order (lfuLe32 disk 4)
    ++ (store32 order (lfuLe32 disk 8) ++ store32 order (lfuLe32 disk 12))) = fields
  have sixteen : fields.length = 16 := by simp [← header]
  generalize (disk.drop 40).take 15 = name at *
  have named : (name ++ [last]).length = (List.replicate 16 (0 : UInt8)).length := by
    simp [text]
  have pooled
      : storeList (fields ++ (List.replicate 16 0 ++ (List.replicate 16 0 ++ back))) 32
          (name ++ [last])
        = some (fields ++ (List.replicate 16 0 ++ (name ++ [last] ++ back))) :=
    (storeList_skip sixteen _ 16 _).trans
      (congrArg (Option.map (fields ++ ·))
        (storeList_over List.length_replicate named back))
  have ended
      : storeList (List.replicate 16 0 ++ (name ++ ([last] ++ back))) 31 [0]
        = some (List.replicate 16 0 ++ (name ++ ([0] ++ back))) :=
    (storeList_skip List.length_replicate _ 15 _).trans
      (congrArg (Option.map (List.replicate 16 0 ++ ·))
        (storeList_over text (show [(0 : UInt8)].length = [last].length from rfl) back))
  rw [pooled, Option.bind_some, List.append_assoc name]
  refine ((storeList_skip sixteen _ 31 _).trans
    (congrArg (Option.map (fields ++ ·)) ended)).trans ?_
  simp only [Option.map_some, ← header, List.append_assoc]

/-- The bytes of a striped directory that has been converted: the header, an empty entry for
every stripe, and what the buffer held behind them.
-/
theorem scanLmvToUser_striped (magic : lfuLe32 disk 0 = lmvMagicV1)
    (long : lmvMdsMdV1Size ≤ disk.length) (few : (lfuLe32 disk 4).toNat ≤ maxStripes)
    (size : out.length = scanLmvBuf maxStripes)
    : scanLmvToUser order maxStripes disk out
      = some (lmvUserMdSize, lmvUserMd order disk
          ++ (List.replicate ((lfuLe32 disk 4).toNat * lmvUserMdsDataSize) 0
          ++ out.drop (lmvUserMdSize + (lfuLe32 disk 4).toNat * lmvUserMdsDataSize))) := by
  have room : (out.length - lmvUserMdSize) / lmvUserMdsDataSize = maxStripes := by
    rw [size, scanLmvBuf, Nat.add_sub_cancel_left, Nat.mul_div_cancel _ (by decide)]
  have fits : lmvUserMdSize + (lfuLe32 disk 4).toNat * lmvUserMdsDataSize ≤ out.length := by
    rw [size, scanLmvBuf]
    exact Nat.add_le_add_left (Nat.mul_le_mul_right _ few) _
  have load (off : Nat) (inside : off + 4 ≤ lmvMdsMdV1Size)
      : Checked.lfuLe32 disk off = some (lfuLe32 disk off) :=
    Checked.lfuLe32_inside (by omega)
  have known
      : ¬ (decide (lmvMagicV1 ≠ lmvMagicV1) || decide (disk.length < lmvMdsMdV1Size)
          || decide (out.length < lmvUserMdSize)) = true := by
    simp only [ne_eq, not_true_eq_false, decide_false, Bool.false_or, Bool.or_eq_true,
      decide_eq_true_eq]
    omega
  have cleared
      : storeList out 0
          (List.replicate (lmvUserMdSize + (lfuLe32 disk 4).toNat * lmvUserMdsDataSize) 0)
        = some (List.replicate lmvUserMdSize 0
          ++ (List.replicate ((lfuLe32 disk 4).toNat * lmvUserMdsDataSize) 0
          ++ out.drop (lmvUserMdSize + (lfuLe32 disk 4).toNat * lmvUserMdsDataSize))) := by
    rw [← List.append_assoc, List.replicate_append_replicate]
    generalize lmvUserMdSize + (lfuLe32 disk 4).toNat * lmvUserMdsDataSize = area at fits ⊢
    have same : (List.replicate area (0 : UInt8)).length = (out.take area).length := by
      rw [List.length_replicate, List.length_take, Nat.min_eq_left fits]
    have head := storeList_head same (out.drop area)
    rwa [List.take_append_drop] at head
  unfold scanLmvToUser
  rw [if_neg (by simp only [lmvMdsMdV1Size] at long; omega), load 0 (by decide), magic,
    load 4 (by decide), room]
  simp only [Option.bind_eq_bind, Option.bind_some, Nat.min_eq_left few]
  rw [if_neg (by decide), if_neg known, if_neg (Nat.not_lt.mpr few), cleared, Option.bind_some,
    fillLmvUser_cleared order long]
  rfl

theorem lfuLe32_front {off : Nat} (inside : off + 4 ≤ disk.length) (back : Bytes)
    : lfuLe32 (disk ++ back) off = lfuLe32 disk off := by
  have here
      : lfuLe32 (((disk ++ back).drop 0).take disk.length) off
        = lfuLe32 (disk ++ back) (0 + off) :=
    lfuLe32_window _ (by omega)
  rw [List.drop_zero, List.take_left, Nat.zero_add] at here
  exact here.symm

theorem fieldToHost_at {front old : Bytes} {off : Nat} (placed : front.length = off)
    (four : old.length = 4) (back : Bytes)
    : fieldToHost order (front ++ (old ++ back)) off
      = some (lfuLe32 old 0, front ++ (store32 order (lfuLe32 old 0) ++ back)) := by
  have read : Checked.lfuLe32 (front ++ (old ++ back)) off = some (lfuLe32 old 0) := by
    rw [Checked.lfuLe32_inside (by simp only [List.length_append]; omega)]
    refine congrArg some ((lfuLe32_skip placed (old ++ back) 0).trans ?_)
    exact lfuLe32_front (by omega) back
  have stored := storeList_over placed
    (show (store32 order (lfuLe32 old 0)).length = old.length by rw [length_store32, four]) back
  simp only [fieldToHost, read, stored, Option.bind_eq_bind, Option.bind_some]
  rfl

/-- A foreign value that has been converted: the header in host order, the value as it is,
and what the buffer held behind it.
-/
theorem foreignToUser_copied (long : lfmValue ≤ disk.length)
    (fits : disk.length ≤ out.length)
    : foreignToUser order lmvMagicForeign disk out
      = some
          (if (lfuLe32 disk 4).toNat > disk.length - lfmValue then 0 else disk.length,
            lmvForeignMd order disk ++ out.drop disk.length) := by
  have room
      : ¬ (decide (disk.length < lfmValue) || decide (disk.length > out.length)) = true := by
    simp only [Bool.or_eq_true, decide_eq_true_eq]
    omega
  have copied : storeList out 0 disk = some (disk ++ out.drop disk.length) := by
    have same : disk.length = (out.take disk.length).length := by
      rw [List.length_take, Nat.min_eq_left fits]
    have head := storeList_head same (out.drop disk.length)
    rwa [List.take_append_drop] at head
  have whole : loadRange disk 0 disk.length = some disk := by
    rw [loadRange_inside (by omega), List.drop_zero, List.take_length]
  unfold foreignToUser lmvForeignMd
  rw [if_neg room, whole, Option.bind_eq_bind, Option.bind_some, copied]
  have long : 16 ≤ disk.length := long
  generalize out.drop disk.length = behind
  -- the header, number by number
  obtain ⟨a, b, c, d, value, rfl, ⟨fourA, fourB, fourC, fourD⟩⟩ : ∃ a b c d value : Bytes,
      disk = a ++ (b ++ (c ++ (d ++ value)))
      ∧ (a.length = 4 ∧ b.length = 4 ∧ c.length = 4 ∧ d.length = 4) := by
    have part (k : Nat) : (disk.drop k).take 4 ++ disk.drop (k + 4) = disk.drop k := by
      rw [← List.drop_drop, List.take_append_drop]
    refine ⟨disk.take 4, (disk.drop 4).take 4, (disk.drop 8).take 4, (disk.drop 12).take 4,
      disk.drop 16, ?_, ?_⟩
    · rw [part 12, part 8, part 4, List.take_append_drop]
    · simp only [List.length_take, List.length_drop]
      omega
  have lfmLength : lfuLe32 (a ++ (b ++ (c ++ (d ++ value)))) 4 = lfuLe32 b 0 :=
    (lfuLe32_skip fourA _ 0).trans (lfuLe32_front (by omega) _)
  have lfmType : lfuLe32 (a ++ (b ++ (c ++ (d ++ value)))) 8 = lfuLe32 c 0 :=
    (lfuLe32_skip fourA _ 4).trans <|
      (lfuLe32_skip fourB _ 0).trans (lfuLe32_front (by omega) _)
  have lfmFlags : lfuLe32 (a ++ (b ++ (c ++ (d ++ value)))) 12 = lfuLe32 d 0 :=
    (lfuLe32_skip fourA _ 8).trans <|
      (lfuLe32_skip fourB _ 4).trans <|
        (lfuLe32_skip fourC _ 0).trans (lfuLe32_front (by omega) _)
  have rest : (a ++ (b ++ (c ++ (d ++ value)))).drop 16 = value := by
    rw [← List.append_assoc, ← List.append_assoc, ← List.append_assoc]
    exact List.drop_left' (by simp only [List.length_append]; omega)
  rw [lfmLength, lfmType, lfmFlags, rest]
  generalize magic : store32 order lmvMagicForeign = first
  have fourM : first.length = 4 := by rw [← magic, length_store32]
  have one := storeList_head (show first.length = a.length by omega)
    (b ++ (c ++ (d ++ (value ++ behind))))
  have two := fieldToHost_at order fourM fourB (c ++ (d ++ (value ++ behind)))
  have three := fieldToHost_at order
    (show (first ++ store32 order (lfuLe32 b 0)).length = 8 by
      rw [List.length_append, fourM, length_store32])
    fourC (d ++ (value ++ behind))
  have four := fieldToHost_at order
    (show (first ++ (store32 order (lfuLe32 b 0) ++ store32 order (lfuLe32 c 0))).length = 12 by
      simp only [List.length_append, fourM, length_store32])
    fourD (value ++ behind)
  simp only [List.append_assoc] at three four
  simp only [List.append_assoc, Option.bind_eq_bind, Option.bind_some, one, two, three, four]
  by_cases large : (lfuLe32 b 0).toNat > (a ++ (b ++ (c ++ (d ++ value)))).length - lfmValue
  · rw [if_pos large, if_pos large]
    rfl
  · rw [if_neg large, if_neg large]
    rfl

/-- The size the conversion gives: of a foreign value that says no more than there is, of a
directory with a number of stripes a directory can have, and 0 for everything else.
-/
def lmvUserSize (maxStripes : Nat) (disk : Bytes) : Nat :=
  if disk.length < 4 then
    0
  else if lfuLe32 disk 0 == lmvMagicForeign then
    if disk.length < lfmValue || disk.length > scanLmvBuf maxStripes then
      0
    else if (lfuLe32 disk 4).toNat > disk.length - lfmValue then
      0
    else
      disk.length
  else if lfuLe32 disk 0 ≠ lmvMagicV1 || disk.length < lmvMdsMdV1Size then
    0
  else if (lfuLe32 disk 4).toNat > maxStripes then
    0
  else
    lmvUserMdSize

/-- What a consumer reads of a stripe that has been converted. -/
def lmvUserArea (order : ByteOrder) (disk : Bytes) : Bytes :=
  if lfuLe32 disk 0 == lmvMagicForeign then
    lmvForeignMd order disk
  else
    lmvUserMd order disk ++ List.replicate ((lfuLe32 disk 4).toNat * lmvUserMdsDataSize) 0

theorem length_lmvUserMd (long : lmvMdsMdV1Size ≤ disk.length)
    : (lmvUserMd order disk).length = lmvUserMdSize := by
  simp only [lmvMdsMdV1Size] at long
  simp only [lmvUserMd, List.length_append, length_store32, List.length_replicate,
    List.length_take, List.length_drop, List.length_singleton, lmvUserMdSize]
  omega

theorem length_lmvForeignMd (long : lfmValue ≤ disk.length)
    : (lmvForeignMd order disk).length = disk.length := by
  simp only [lfmValue] at long
  simp only [lmvForeignMd, List.length_append, length_store32, List.length_drop]
  omega

theorem lmvForeignMd_magic (behind : Bytes)
    : lfuHost32 order (lmvForeignMd order disk ++ behind) 0 = lmvMagicForeign := by
  rw [lmvForeignMd, List.append_assoc, lfuHost32_store32, if_pos rfl]

theorem lmvClaimed_foreign (long : lfmValue ≤ disk.length) (behind : Bytes)
    : lmvClaimed order (lmvForeignMd order disk ++ behind) disk.length
      = lmvForeignMd order disk := by
  rw [lmvClaimed, lmvForeignMd_magic, if_pos (beq_self_eq_true _),
    List.take_left' (length_lmvForeignMd order long)]

theorem lmvUserMd_magic (behind : Bytes)
    : lfuHost32 order (lmvUserMd order disk ++ behind) 0 = lmvMagicV1 := by
  rw [lmvUserMd, List.append_assoc, lfuHost32_store32, if_pos rfl]

theorem lmvUserMd_stripeCount (behind : Bytes)
    : lfuHost32 order (lmvUserMd order disk ++ behind) 4 = lfuLe32 disk 4 := by
  rw [lmvUserMd, List.append_assoc, List.append_assoc]
  refine (lfuHost32_skip (length_store32 _ _) order _ 0).trans ?_
  rw [lfuHost32_store32, if_pos rfl]

theorem lmvClaimed_striped (long : lmvMdsMdV1Size ≤ disk.length) (behind : Bytes) (ulen : Nat)
    : lmvClaimed order
        (lmvUserMd order disk
          ++ (List.replicate ((lfuLe32 disk 4).toNat * lmvUserMdsDataSize) 0 ++ behind)) ulen
      = lmvUserMd order disk
        ++ List.replicate ((lfuLe32 disk 4).toNat * lmvUserMdsDataSize) 0 := by
  have entries
      : (lmvUserMd order disk
          ++ List.replicate ((lfuLe32 disk 4).toNat * lmvUserMdsDataSize) 0).length
        = lmvUserMdSize + (lfuLe32 disk 4).toNat * lmvUserMdsDataSize := by
    rw [List.length_append, length_lmvUserMd order long, List.length_replicate]
  rw [lmvClaimed, lmvUserMd_magic, lmvUserMd_stripeCount, if_neg (by decide),
    ← List.append_assoc, List.take_left' entries]

/-- What the conversion leaves: a buffer of the same size and, of a value a consumer can read,
the magic and the part it reads, which come from this object alone.
-/
structure StripeExit (order : ByteOrder) (maxStripes : Nat) (disk out : Bytes)
    (result : Option (Nat × Bytes))
    : Prop where
  inside :
    ∃ after, result = some (lmvUserSize maxStripes disk, after)
      ∧ after.length = out.length
      ∧ (lmvUserSize maxStripes disk ≠ 0
          → lmvClaimed order after (lmvUserSize maxStripes disk) = lmvUserArea order disk
            ∧ lfuHost32 order after 0 = lfuLe32 disk 0)

theorem StripeExit.refused (none_ : lmvUserSize maxStripes disk = 0)
    : StripeExit order maxStripes disk out (some (0, out)) :=
  ⟨out, by rw [none_], rfl, fun converted => absurd none_ converted⟩

theorem foreignToUser_spec (long : 4 ≤ disk.length) (foreign : lfuLe32 disk 0 = lmvMagicForeign)
    (size : out.length = scanLmvBuf maxStripes)
    : StripeExit order maxStripes disk out
        (foreignToUser order lmvMagicForeign disk out) := by
  have same : (lfuLe32 disk 0 == lmvMagicForeign) = true := beq_iff_eq.mpr foreign
  have value : lmvUserSize maxStripes disk
      = if disk.length < lfmValue || disk.length > out.length then 0
        else if (lfuLe32 disk 4).toNat > disk.length - lfmValue then 0 else disk.length := by
    rw [lmvUserSize, if_neg (Nat.not_lt.mpr long), if_pos same, size]
  by_cases room : (decide (disk.length < lfmValue) || decide (disk.length > out.length)) = true
  · rw [foreignToUser, if_pos room]
    exact .refused order (value.trans (if_pos room))
  · rw [if_neg room] at value
    simp only [Bool.or_eq_true, decide_eq_true_eq, not_or, Nat.not_lt] at room
    obtain ⟨header, fits⟩ := room
    rw [foreignToUser_copied order header fits, ← value]
    refine ⟨_, rfl, ?_, fun converted => ⟨?_, ?_⟩⟩
    · rw [List.length_append, length_lmvForeignMd order header, List.length_drop]
      omega
    · have whole : lmvUserSize maxStripes disk = disk.length := by
        rw [value] at converted ⊢
        exact if_neg fun large => converted (if_pos large)
      rw [whole, lmvClaimed_foreign order header, lmvUserArea, if_pos same]
    · rw [lmvForeignMd_magic, foreign]

/-- The conversion stays inside the buffer, and what a consumer reads afterwards comes from
this object alone, the entries its count claims included.
-/
theorem scanLmvToUser_spec (disk : Bytes) (size : out.length = scanLmvBuf maxStripes)
    : StripeExit order maxStripes disk out (scanLmvToUser order maxStripes disk out) := by
  by_cases short : disk.length < 4
  · rw [scanLmvToUser, if_pos short]
    exact .refused order (if_pos short)
  have magic := Checked.lfuLe32_inside (show 0 + 4 ≤ disk.length by omega)
  by_cases foreign : lfuLe32 disk 0 = lmvMagicForeign
  · have converts
        : scanLmvToUser order maxStripes disk out
          = foreignToUser order lmvMagicForeign disk out := by
      rw [scanLmvToUser, if_neg short, magic, foreign]
      rfl
    rw [converts]
    exact foreignToUser_spec order (Nat.not_lt.mp short) foreign size
  have other : ¬ (lfuLe32 disk 0 == lmvMagicForeign) = true :=
    fun same => foreign (beq_iff_eq.mp same)
  have header : lmvUserMdSize ≤ out.length := by
    rw [size, scanLmvBuf]
    exact Nat.le_add_right _ _
  -- the buffer always holds a header, so its test is left out
  have tests
      : (decide (lfuLe32 disk 0 ≠ lmvMagicV1) || decide (disk.length < lmvMdsMdV1Size)
          || decide (out.length < lmvUserMdSize))
        = (decide (lfuLe32 disk 0 ≠ lmvMagicV1) || decide (disk.length < lmvMdsMdV1Size)) := by
    rw [decide_eq_false (Nat.not_lt.mpr header), Bool.or_false]
  have value : lmvUserSize maxStripes disk
      = if lfuLe32 disk 0 ≠ lmvMagicV1 || disk.length < lmvMdsMdV1Size then 0
        else if (lfuLe32 disk 4).toNat > maxStripes then 0 else lmvUserMdSize := by
    rw [lmvUserSize, if_neg short, if_neg other]
  by_cases unknown
      : (decide (lfuLe32 disk 0 ≠ lmvMagicV1) || decide (disk.length < lmvMdsMdV1Size)) = true
  · rw [scanLmvToUser, if_neg short, magic, Option.bind_eq_bind, Option.bind_some,
      if_neg other, tests, if_pos unknown]
    exact .refused order (value.trans (if_pos unknown))
  · rw [if_neg unknown] at value
    have striped : lfuLe32 disk 0 = lmvMagicV1 ∧ lmvMdsMdV1Size ≤ disk.length := by
      simpa using unknown
    obtain ⟨v1, long⟩ := striped
    have count := Checked.lfuLe32_inside
      (show 4 + 4 ≤ disk.length from Nat.le_trans (by decide) long)
    by_cases many : (lfuLe32 disk 4).toNat > maxStripes
    · rw [scanLmvToUser, if_neg short, magic, Option.bind_eq_bind, Option.bind_some,
        if_neg other, tests, if_neg unknown, count, Option.bind_some, if_pos many]
      exact .refused order (value.trans (if_pos many))
    · have few := Nat.not_lt.mp many
      rw [if_neg many] at value
      rw [scanLmvToUser_striped order v1 long few size, ← value]
      refine ⟨_, rfl, ?_, fun _ => ⟨?_, ?_⟩⟩
      · have fits := Nat.mul_le_mul_right lmvUserMdsDataSize few
        rw [List.length_append, List.length_append, length_lmvUserMd order long,
          List.length_replicate, List.length_drop]
        simp only [scanLmvBuf] at size
        omega
      · rw [lmvClaimed_striped order long, lmvUserArea, if_neg other]
      · rw [lmvUserMd_magic, v1]

end Converted

end LfuScan.ScanDevice
