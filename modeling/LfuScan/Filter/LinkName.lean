import LfuScan.Filter.Eval
import LfuScan.Lustre.ByteOrder
import Mathlib.Data.List.TakeWhile

/-! `trusted.link` on disk, and the names `--name` finds in it. The header is in the order of
the host that wrote it, the length of each entry always big-endian.
-/

namespace LfuScan.Filter

open LfuScan.Lustre

/-- `struct link_ea_entry`: the directory a link is in, and its name there. -/
structure LinkEaEntry where
  leeParentFid : Vector UInt8 16
  leeName : Bytes
  named : leeName ≠ []
  short : leeName.length ≤ 255
  text : ∀ c ∈ leeName, c ≠ 0

/-- The length of an entry, name included. -/
def LinkEaEntry.reclen (entry : LinkEaEntry) : Nat := linkEaEntrySize + entry.leeName.length

def LinkEaEntry.bytes (entry : LinkEaEntry) : Bytes :=
  be16 (UInt16.ofNat entry.reclen) ++ entry.leeParentFid.toList ++ entry.leeName

/-- The attribute with its entries, as a host of the given order has written it. -/
structure LinkEa where
  order : ByteOrder
  entries : List LinkEaEntry
  lehOverflowTime : UInt32 := 0
  lehPadding : UInt32 := 0
  countable : entries.length < 2 ^ 32

namespace LinkEa

variable (ea : LinkEa)

def entryBytes : Bytes := ea.entries.flatMap LinkEaEntry.bytes

def lehLen : Nat := linkEaHeaderSize + ea.entryBytes.length

/-- `struct link_ea_header`. -/
def header : Bytes :=
  store32 ea.order linkEaMagic ++ store32 ea.order (UInt32.ofNat ea.entries.length)
    ++ store64 ea.order (UInt64.ofNat ea.lehLen) ++ store32 ea.order ea.lehOverflowTime
    ++ store32 ea.order ea.lehPadding

def bytes : Bytes := ea.header ++ ea.entryBytes

end LinkEa

theorem LinkEaEntry.length_bytes (entry : LinkEaEntry) : entry.bytes.length = entry.reclen := by
  simp [bytes, reclen, be16, linkEaEntrySize]
  omega

theorem LinkEaEntry.reclen_lt (entry : LinkEaEntry)
    : linkEaEntrySize < entry.reclen ∧ entry.reclen < 2 ^ 16 := by
  have positive := List.length_pos_iff.mpr entry.named
  have short := entry.short
  unfold reclen linkEaEntrySize
  omega

theorem LinkEa.length_header (ea : LinkEa) : ea.header.length = linkEaHeaderSize := by
  simp [header, linkEaHeaderSize]

theorem length_entries_le (entries : List LinkEaEntry)
    : (entries.flatMap LinkEaEntry.bytes).length ≤ entries.length * 2 ^ 16 := by
  induction entries with
  | nil => exact Nat.zero_le _
  | cons entry rest ih =>
      have most := entry.reclen_lt.2
      rw [List.flatMap_cons, List.length_append, entry.length_bytes, List.length_cons]
      omega

theorem LinkEa.lehLen_lt (ea : LinkEa) : ea.lehLen < 2 ^ 64 := by
  have most := length_entries_le ea.entries
  have countable := ea.countable
  unfold lehLen entryBytes linkEaHeaderSize
  omega

/-- The length the loop reads. -/
theorem reclen_read (entry : LinkEaEntry) {front : Bytes} {off : Nat}
    (placed : front.length = off) (back : Bytes)
    : ((byteAt (front ++ (entry.bytes ++ back)) off).toUInt16 <<< 8
        ||| (byteAt (front ++ (entry.bytes ++ back)) (off + 1)).toUInt16).toNat
      = entry.reclen := by
  have first : byteAt (front ++ (entry.bytes ++ back)) off
      = (UInt16.ofNat entry.reclen >>> 8).toUInt8 :=
    byteAt_skip placed (entry.bytes ++ back) 0
  have second : byteAt (front ++ (entry.bytes ++ back)) (off + 1)
      = (UInt16.ofNat entry.reclen).toUInt8 :=
    byteAt_skip placed (entry.bytes ++ back) 1
  rw [first, second, UInt16.or_comm, join_le16]
  exact UInt16.toNat_ofNat_of_lt' entry.reclen_lt.2

/-- The name the loop copies. -/
theorem name_read (entry : LinkEaEntry) {front : Bytes} {off : Nat}
    (placed : front.length = off) (back : Bytes)
    : (((front ++ (entry.bytes ++ back)).drop (off + linkEaEntrySize)).take
          (min (entry.reclen - linkEaEntrySize) 255)).takeWhile (· != 0)
      = entry.leeName := by
  have size : min (entry.reclen - linkEaEntrySize) 255 = entry.leeName.length := by
    rw [LinkEaEntry.reclen, Nat.add_sub_cancel_left, Nat.min_eq_left entry.short]
  have split : front ++ (entry.bytes ++ back)
      = (front ++ (be16 (UInt16.ofNat entry.reclen) ++ entry.leeParentFid.toList))
        ++ (entry.leeName ++ back) := by
    simp only [LinkEaEntry.bytes, List.append_assoc]
  have length
      : (front ++ (be16 (UInt16.ofNat entry.reclen) ++ entry.leeParentFid.toList)).length
        = off + linkEaEntrySize := by
    simp [be16, linkEaEntrySize, placed]
  rw [size, split, List.drop_left' length, List.take_left, List.takeWhile_eq_self_iff]
  exact fun c member => bne_iff_ne.mpr (entry.text c member)

/-- The loop asks about every name. -/
theorem linkeaLoop_entries (env : Platform) (p : LfuPred) (entries : List LinkEaEntry)
    (trailing : Bytes) {front : Bytes} {off lehLen : Nat} (placed : front.length = off)
    (ends : lehLen = off + (entries.flatMap LinkEaEntry.bytes).length)
    : linkeaLoop env p (front ++ (entries.flatMap LinkEaEntry.bytes ++ trailing)) lehLen
        entries.length off
      = entries.any fun entry => lfuGlob env p.pattern entry.leeName := by
  induction entries generalizing front off with
  | nil => rfl
  | cons entry rest ih =>
      obtain ⟨least, most⟩ := entry.reclen_lt
      rw [List.flatMap_cons, List.length_append, entry.length_bytes] at ends
      rw [List.flatMap_cons, List.append_assoc, List.length_cons, linkeaLoop,
        if_neg (by omega)]
      simp only [reclen_read entry placed, name_read entry placed]
      have inside : ¬ (decide (entry.reclen ≤ linkEaEntrySize)
          || decide (off + entry.reclen > lehLen)) = true := by
        simp only [Bool.or_eq_true, decide_eq_true_eq]
        omega
      rw [if_neg inside, List.any_cons]
      -- the rest of the attribute, with this entry behind
      have next : (front ++ entry.bytes).length = off + entry.reclen := by
        rw [List.length_append, placed, entry.length_bytes]
      have later := ih next (by omega)
      rw [List.append_assoc] at later
      cases lfuGlob env p.pattern entry.leeName with
      | true => rfl
      | false => exact later

/-- What a host reads in the header: the same numbers, or all of them swapped. -/
theorem header_read (ea : LinkEa) (order : ByteOrder) (back : Bytes)
    : let b := ea.header ++ back
      lfuHost32 order b 0 = (if order = ea.order then linkEaMagic else bswap32 linkEaMagic)
      ∧ lfuHost32 order b 4
        = (if order = ea.order then UInt32.ofNat ea.entries.length
            else bswap32 (UInt32.ofNat ea.entries.length))
      ∧ lfuHost64 order b 8
        = (if order = ea.order then UInt64.ofNat ea.lehLen
            else bswap64 (UInt64.ofNat ea.lehLen)) := by
  simp only [LinkEa.header, List.append_assoc]
  refine ⟨lfuHost32_store32 _ _ _ _, ?_, ?_⟩
  · exact (lfuHost32_skip (length_store32 _ _) _ _ 0).trans (lfuHost32_store32 _ _ _ _)
  · rw [← List.append_assoc]
    exact (lfuHost64_skip (by simp) _ _ 0).trans (lfuHost64_store64 _ _ _ _)

/-- A name is found if and only if the pattern matches the name of some link; what stands
behind the attribute's own length does not matter.
-/
theorem linkea_name_iff (env : Platform) (p : LfuPred) (ea : LinkEa) (trailing : Bytes)
    : lfuLinkeaName env (some (ea.bytes ++ trailing)) p = true
      ↔ ∃ entry ∈ ea.entries, lfuGlob env p.pattern entry.leeName = true := by
  have length : (ea.bytes ++ trailing).length = ea.lehLen + trailing.length := by
    rw [LinkEa.bytes, List.length_append, List.length_append, ea.length_header]
    rfl
  have enough : ¬ (ea.bytes ++ trailing).length < linkEaHeaderSize := by
    rw [length, LinkEa.lehLen]
    omega
  have count : (UInt32.ofNat ea.entries.length).toNat = ea.entries.length :=
    UInt32.toNat_ofNat_of_lt' ea.countable
  have ends : min (UInt64.ofNat ea.lehLen).toNat (ea.bytes ++ trailing).length = ea.lehLen := by
    rw [UInt64.toNat_ofNat_of_lt' ea.lehLen_lt, length]
    exact Nat.min_eq_left (Nat.le_add_right _ _)
  have loop := linkeaLoop_entries env p ea.entries trailing ea.length_header
    (rfl : ea.lehLen = linkEaHeaderSize + (ea.entries.flatMap LinkEaEntry.bytes).length)
  have placed : ea.header ++ (ea.entries.flatMap LinkEaEntry.bytes ++ trailing)
      = ea.bytes ++ trailing :=
    (List.append_assoc _ _ _).symm
  rw [placed] at loop
  obtain ⟨magic, reccount, lehLen⟩ :=
    header_read ea env.order (ea.entries.flatMap LinkEaEntry.bytes ++ trailing)
  rw [placed] at magic reccount lehLen
  have found : lfuLinkeaName env (some (ea.bytes ++ trailing)) p
      = ea.entries.any fun entry => lfuGlob env p.pattern entry.leeName := by
    simp only [lfuLinkeaName, enough, if_false, magic, reccount, lehLen]
    by_cases own : env.order = ea.order
    · simp only [own, if_true, beq_self_eq_true, count, ends, loop]
    · have foreign : (bswap32 linkEaMagic == linkEaMagic) = false := by decide
      simp only [own, if_false, foreign, Bool.false_eq_true, beq_self_eq_true, if_true,
        bswap32_bswap32, bswap64_bswap64, count, ends, loop]
  rw [found, List.any_eq_true]

end LfuScan.Filter
