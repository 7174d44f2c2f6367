import LfuScan.Filter.Bounds
import LfuScan.Filter.LinkName

/-! `trusted.link` as a scan of a target reads it: one entry at a time, each giving the
directory a link is in and the name it has there. No length read off the device is trusted,
so whatever the bytes are nothing outside them is read; and of an attribute that was written
whole, entry by entry, every link comes back.
-/

namespace LfuScan.ScanDevice

open LfuScan.Lustre LfuScan.Foundations LfuScan.Filter

variable {n : Nat}

-----------------------------------------------------------------------------------------
-- The walk
-----------------------------------------------------------------------------------------

def loadBe32 (b : Bytes) (off : Nat) : Option UInt32 := do
  let value ← Checked.lfuLe32 b off
  return bswap32 value

def loadBe64 (b : Bytes) (off : Nat) : Option UInt64 := do
  let value ← Checked.lfuLe64 b off
  return bswap64 value

/-- `lee_parent_fid`, big-endian on disk. -/
def loadParent (buf : Bytes) (off : Nat) : Option LuFid := do
  let fSeq ← loadBe64 buf (off + 2)
  let fOid ← loadBe32 buf (off + 10)
  let fVer ← loadBe32 buf (off + 14)
  return { fSeq, fOid, fVer }

/-- A name copied into the caller's array, cut to leave room for its terminator. -/
def copyName (name : Vector UInt8 n) (buf : Bytes) (off namelen : Nat)
    : Option (Vector UInt8 n) := do
  let namelen := if namelen ≥ n then n - 1 else namelen
  let source ← loadRange buf off namelen
  let name ← storeRange name source
  store name namelen 0

/-- What a call leaves: the offset of the next entry, the parent and the name. -/
structure LinkRead (n : Nat) where
  off : Nat
  parent : LuFid
  name : Vector UInt8 n

/-- The entry at an offset, 0 being the first one, and a caller that only wants to pass it
leaves parent and name as they are. The inner `none` is the end of the buffer, or an entry
whose length cannot be trusted.
-/
def scanLinkeaNext (buf : Bytes) (off : Nat) (fill : Bool) (parent : LuFid)
    (name : Vector UInt8 n)
    : Option (Option (LinkRead n)) :=
  let off := if off ≠ 0 then off else linkEaHeaderSize
  if off + linkEaEntrySize > buf.length then
    some none
  else do
    let high ← load buf off
    let low ← load buf (off + 1)
    let reclen := (high.toUInt16 <<< 8 ||| low.toUInt16).toNat
    if reclen ≤ linkEaEntrySize || off + reclen > buf.length then
      return none
    else if fill then
      let parent ← loadParent buf off
      let name ← copyName name buf (off + linkEaEntrySize) (reclen - linkEaEntrySize)
      return some { off := off + reclen, parent, name }
    else
      return some { off := off + reclen, parent, name }

/-- The loop of `scan_linkea_entry`: past so many entries, then the one wanted. -/
def linkeaSeek (buf : Bytes) (parent : LuFid) (name : Vector UInt8 n)
    : Nat → Nat → Option (Option (LinkRead n))
  | 0, off => scanLinkeaNext buf off true parent name
  | left + 1, off => do
      match ← scanLinkeaNext buf off false parent name with
      | none => return none
      | some passed => linkeaSeek buf parent name left passed.off

/-- What the header says there is, no more than the buffer can hold. -/
def scanLinkeaCount (order : ByteOrder) (buf : Bytes) : Option Nat :=
  if buf.length < linkEaHeaderSize then
    some 0
  else do
    let magic ← Checked.lfuHost32 order buf 0
    let reccount ← Checked.lfuHost32 order buf 4
    let swapped := magic == bswap32 linkEaMagic
    let magic := if swapped then linkEaMagic else magic
    let reccount := if swapped then bswap32 reccount else reccount
    if magic ≠ linkEaMagic || reccount == 0 then
      return 0
    else
      return min reccount.toNat ((buf.length - linkEaHeaderSize) / linkEaEntrySize)

/-- `scan_linkea_entry` for a caller with a name and a parent to fill: the entry count, or 0
with the entry not there.
-/
def scanLinkeaEntry (order : ByteOrder) (buf : Bytes) (idx : Nat) (parent : LuFid)
    (name : Vector UInt8 n)
    : Option (Nat × LuFid × Vector UInt8 n) := do
  let reccount ← scanLinkeaCount order buf
  if reccount = 0 then
    return (0, parent, name)
  else
    match ← linkeaSeek buf parent name idx 0 with
    | none => return (0, parent, name)
    | some read => return (reccount, read.parent, read.name)

section Inside

variable {buf : Bytes} {off : Nat}

theorem loadParent_inside (inside : off + linkEaEntrySize ≤ buf.length)
    : loadParent buf off
      = some
          {
            fSeq := bswap64 (lfuLe64 buf (off + 2))
            fOid := bswap32 (lfuLe32 buf (off + 10))
            fVer := bswap32 (lfuLe32 buf (off + 14))
          } := by
  simp only [linkEaEntrySize] at inside
  have seq := Checked.lfuLe64_inside (show off + 2 + 8 ≤ buf.length by omega)
  have oid := Checked.lfuLe32_inside (show off + 10 + 4 ≤ buf.length by omega)
  have ver := Checked.lfuLe32_inside (show off + 14 + 4 ≤ buf.length by omega)
  simp only [loadParent, loadBe64, loadBe32, seq, oid, ver]
  rfl

/-- The name is there, cut to the array, and nothing of what the array held. -/
theorem copyName_inside (positive : 0 < n) (name : Vector UInt8 n) {namelen : Nat}
    (inside : off + namelen ≤ buf.length)
    : ∃ copied, copyName name buf off namelen = some copied
        ∧ loadString copied
          = some (((buf.drop off).take (min namelen (n - 1))).takeWhile (· != 0)) := by
  have cut : (if namelen ≥ n then n - 1 else namelen) = min namelen (n - 1) := by
    split <;> omega
  have within : off + min namelen (n - 1) ≤ buf.length := by omega
  have count : ((buf.drop off).take (min namelen (n - 1))).length = min namelen (n - 1) :=
    length_window within
  obtain ⟨copied, terminated, wrote, ended, read⟩ :=
    loadString_written name (show ((buf.drop off).take (min namelen (n - 1))).length < n by omega)
  rw [count] at ended
  refine ⟨terminated, ?_, read⟩
  simp only [copyName, cut, loadRange_inside within, wrote, ended, Option.bind_eq_bind,
    Option.bind_some]

/-- The link at an offset, as far as its length can be trusted: where the next one is, the
parent and the name.
-/
def linkAt (n : Nat) (buf : Bytes) (off : Nat) : Option (Nat × LuFid × Bytes) :=
  let off := if off ≠ 0 then off else linkEaHeaderSize
  let reclen := ((byteAt buf off).toUInt16 <<< 8 ||| (byteAt buf (off + 1)).toUInt16).toNat
  if off + linkEaEntrySize > buf.length then
    none
  else if reclen ≤ linkEaEntrySize || off + reclen > buf.length then
    none
  else
    some (off + reclen,
      {
        fSeq := bswap64 (lfuLe64 buf (off + 2))
        fOid := bswap32 (lfuLe32 buf (off + 10))
        fVer := bswap32 (lfuLe32 buf (off + 14))
      },
      ((buf.drop (off + linkEaEntrySize)).take
        (min (reclen - linkEaEntrySize) (n - 1))).takeWhile (· != 0))

/-- A call passes the link at the offset if there is one, and a caller that asked has its
parent and its name, whatever was in the array before.
-/
inductive LinkExit (fill : Bool) (parent : LuFid) (name : Vector UInt8 n)
    : Option (Nat × LuFid × Bytes) → Option (LinkRead n) → Prop
  | ended : LinkExit fill parent name none none
  | passed {read : LinkRead n} {next : Nat} {place : LuFid} {text : Bytes}
    (further : read.off = next)
    (filled : fill = true → read.parent = place ∧ loadString read.name = some text)
    (unfilled : fill = false → read.parent = parent ∧ read.name = name)
    : LinkExit fill parent name (some (next, place, text)) (some read)

theorem scanLinkeaNext_exit (positive : 0 < n) (buf : Bytes) (off : Nat) (fill : Bool)
    (parent : LuFid) (name : Vector UInt8 n)
    : ∃ result, scanLinkeaNext buf off fill parent name = some result
        ∧ LinkExit fill parent name (linkAt n buf off) result := by
  unfold scanLinkeaNext linkAt
  dsimp only
  generalize (if off ≠ 0 then off else linkEaHeaderSize) = start
  split
  · exact ⟨none, rfl, .ended⟩
  · rename_i fits
    have fits : start + linkEaEntrySize ≤ buf.length := Nat.not_lt.mp fits
    simp only [linkEaEntrySize] at fits
    rw [Checked.load_byteAt (show start < buf.length by omega),
      Checked.load_byteAt (show start + 1 < buf.length by omega)]
    simp only [Option.bind_eq_bind, Option.bind_some]
    generalize ((byteAt buf start).toUInt16 <<< 8
      ||| (byteAt buf (start + 1)).toUInt16).toNat = reclen
    split
    · exact ⟨none, rfl, .ended⟩
    · rename_i trusted
      simp only [Bool.or_eq_true, decide_eq_true_eq, not_or, Nat.not_le, Nat.not_lt] at trusted
      cases fill with
      | false =>
          exact ⟨_, rfl, .passed rfl (fun asked => absurd asked (by decide)) fun _ => ⟨rfl, rfl⟩⟩
      | true =>
          obtain ⟨copied, copies, text⟩ :=
            copyName_inside positive name
              (show start + linkEaEntrySize + (reclen - linkEaEntrySize) ≤ buf.length by omega)
          rw [loadParent_inside (by simp only [linkEaEntrySize]; omega)]
          simp only [if_true, Option.bind_some, copies]
          exact ⟨_, rfl, .passed rfl (fun _ => ⟨rfl, text⟩) fun unasked =>
            absurd unasked (by decide)⟩

theorem scanLinkeaCount_inside (order : ByteOrder) (buf : Bytes)
    : ∃ count, scanLinkeaCount order buf = some count := by
  unfold scanLinkeaCount
  split
  · exact ⟨0, rfl⟩
  · rename_i long
    simp only [linkEaHeaderSize] at long
    rw [Checked.lfuHost32_inside _ (by omega), Checked.lfuHost32_inside _ (by omega)]
    simp only [Option.bind_eq_bind, Option.bind_some]
    exact ⟨_, (apply_ite some _ _ _).symm⟩

end Inside

-----------------------------------------------------------------------------------------
-- Every link comes back
-----------------------------------------------------------------------------------------

/-- The directory of an entry, as a FID. -/
def parentFid (entry : LinkEaEntry) : LuFid :=
  {
    fSeq := bswap64 (lfuLe64 entry.leeParentFid.toList 0)
    fOid := bswap32 (lfuLe32 entry.leeParentFid.toList 8)
    fVer := bswap32 (lfuLe32 entry.leeParentFid.toList 12)
  }

section Written

variable {front : Bytes} {off : Nat}

theorem loadParent_written (entry : LinkEaEntry) (back : Bytes) (placed : front.length = off)
    : loadParent (front ++ (entry.bytes ++ back)) off = some (parentFid entry) := by
  have length : entry.bytes.length = entry.reclen := entry.length_bytes
  have named := entry.reclen_lt.1
  rw [loadParent_inside (by simp only [List.length_append]; omega)]
  have parent
      : ((front ++ (entry.bytes ++ back)).drop (off + 2)).take 16
        = entry.leeParentFid.toList := by
    have split : front ++ (entry.bytes ++ back)
        = (front ++ be16 (UInt16.ofNat entry.reclen))
          ++ (entry.leeParentFid.toList ++ (entry.leeName ++ back)) := by
      simp only [LinkEaEntry.bytes, List.append_assoc]
    rw [split, List.drop_left' (by simp [be16, placed]), List.take_left' Vector.length_toList]
  simp only [parentFid, ← parent, lfuLe64, Nat.zero_add]
  rw [lfuLe32_window _ (by decide), lfuLe32_window _ (by decide), lfuLe32_window _ (by decide),
    lfuLe32_window _ (by decide)]

/-- The link at an entry is that entry. -/
theorem linkAt_written (wide : 256 ≤ n) (entry : LinkEaEntry) (back : Bytes)
    (placed : front.length = if off ≠ 0 then off else linkEaHeaderSize)
    : linkAt n (front ++ (entry.bytes ++ back)) off
      = some (front.length + entry.reclen, parentFid entry, entry.leeName) := by
  obtain ⟨named, short⟩ := entry.reclen_lt
  have length
      : (front ++ (entry.bytes ++ back)).length
        = front.length + (entry.reclen + back.length) := by
    rw [List.length_append, List.length_append, entry.length_bytes]
  have trusted
      : ¬ (decide (entry.reclen ≤ linkEaEntrySize)
          || decide (front.length + entry.reclen > (front ++ (entry.bytes ++ back)).length))
            = true := by
    simp only [Bool.or_eq_true, decide_eq_true_eq]
    omega
  have cut
      : min (entry.reclen - linkEaEntrySize) (n - 1)
        = min (entry.reclen - linkEaEntrySize) 255 := by
    have most := entry.short
    simp only [LinkEaEntry.reclen]
    omega
  have parent := loadParent_written entry back (rfl : front.length = front.length)
  rw [loadParent_inside (by omega)] at parent
  unfold linkAt
  simp only [← placed, reclen_read entry rfl back]
  rw [if_neg (by omega), if_neg trusted, cut, name_read entry rfl back,
    Option.some.inj parent]

/-- A call passes the entry, and a caller that asked has its parent and its name. -/
theorem scanLinkeaNext_written (wide : 256 ≤ n) (entry : LinkEaEntry) (back : Bytes)
    (fill : Bool) (parent : LuFid) (name : Vector UInt8 n)
    (placed : front.length = if off ≠ 0 then off else linkEaHeaderSize)
    : ∃ read : LinkRead n,
        scanLinkeaNext (front ++ (entry.bytes ++ back)) off fill parent name = some (some read)
        ∧ read.off = front.length + entry.reclen
        ∧ (fill = true
            → read.parent = parentFid entry ∧ loadString read.name = some entry.leeName) := by
  obtain ⟨result, ends, exit_⟩ :=
    scanLinkeaNext_exit (show 0 < n by omega) (front ++ (entry.bytes ++ back)) off fill parent
      name
  generalize found : linkAt n (front ++ (entry.bytes ++ back)) off = link at exit_
  rw [linkAt_written wide entry back placed] at found
  cases exit_ with
  | ended => cases found
  | passed further filled _ =>
      cases found
      exact ⟨_, ends, further, filled⟩

/-- Seeking an entry that is there finds it, past those before it. -/
theorem linkeaSeek_written (wide : 256 ≤ n) (parent : LuFid) (name : Vector UInt8 n)
    (entries : List LinkEaEntry) (back : Bytes) {idx : Nat} (inside : idx < entries.length)
    (off : Nat) (placed : front.length = if off ≠ 0 then off else linkEaHeaderSize)
    : ∃ read : LinkRead n,
        linkeaSeek (front ++ (entries.flatMap LinkEaEntry.bytes ++ back)) parent name idx off
          = some (some read)
        ∧ read.parent = parentFid entries[idx]
        ∧ loadString read.name = some entries[idx].leeName := by
  induction entries generalizing front off idx with
  | nil => exact absurd inside (Nat.not_lt_zero idx)
  | cons entry rest ih =>
      rw [List.flatMap_cons, List.append_assoc]
      cases idx with
      | zero =>
          obtain ⟨read, found, _, filled⟩ :=
            scanLinkeaNext_written wide entry (rest.flatMap LinkEaEntry.bytes ++ back) true parent
              name placed
          exact ⟨read, found, filled rfl⟩
      | succ idx =>
          obtain ⟨passed, found, further, _⟩ :=
            scanLinkeaNext_written wide entry (rest.flatMap LinkEaEntry.bytes ++ back) false
              parent name placed
          have next
              : (front ++ entry.bytes).length
                = if passed.off ≠ 0 then passed.off else linkEaHeaderSize := by
            have named := entry.reclen_lt.1
            rw [if_pos (by omega), List.length_append, entry.length_bytes, further]
          have later := ih (Nat.lt_of_succ_lt_succ inside) passed.off next
          rw [List.append_assoc] at later
          unfold linkeaSeek
          rw [found]
          exact later

/-- Seeking past the last entry of an attribute that ends with it finds nothing. -/
theorem linkeaSeek_past (wide : 256 ≤ n) (parent : LuFid) (name : Vector UInt8 n)
    (entries : List LinkEaEntry) {idx : Nat} (past : entries.length ≤ idx) (off : Nat)
    (placed : front.length = if off ≠ 0 then off else linkEaHeaderSize)
    : linkeaSeek (front ++ entries.flatMap LinkEaEntry.bytes) parent name idx off
      = some none := by
  induction entries generalizing front off idx with
  | nil =>
      have ended (fill : Bool)
          : scanLinkeaNext (front ++ []) off fill parent name = some none := by
        unfold scanLinkeaNext
        dsimp only
        rw [← placed, List.append_nil, if_pos (by simp only [linkEaEntrySize]; omega)]
      rw [List.flatMap_nil]
      cases idx with
      | zero => exact ended true
      | succ idx =>
          unfold linkeaSeek
          rw [ended]
          rfl
  | cons entry rest ih =>
      rw [List.flatMap_cons]
      cases idx with
      | zero => exact absurd past (Nat.not_succ_le_zero _)
      | succ idx =>
          obtain ⟨passed, found, further, _⟩ :=
            scanLinkeaNext_written wide entry (rest.flatMap LinkEaEntry.bytes) false parent name
              placed
          have next
              : (front ++ entry.bytes).length
                = if passed.off ≠ 0 then passed.off else linkEaHeaderSize := by
            have named := entry.reclen_lt.1
            rw [if_pos (by omega), List.length_append, entry.length_bytes, further]
          have later := ih (Nat.le_of_succ_le_succ past) passed.off next
          rw [List.append_assoc] at later
          unfold linkeaSeek
          rw [found]
          exact later

end Written

/-- Entries take more than their fixed part each. -/
theorem entries_fit (entries : List LinkEaEntry)
    : linkEaEntrySize * entries.length ≤ (entries.flatMap LinkEaEntry.bytes).length := by
  induction entries with
  | nil => exact Nat.zero_le _
  | cons entry rest ih =>
      have named := entry.reclen_lt.1
      rw [List.flatMap_cons, List.length_append, entry.length_bytes, List.length_cons,
        Nat.mul_succ]
      omega

/-- The header's count is believed, whichever host wrote it. -/
theorem scanLinkeaCount_written (order : ByteOrder) (ea : LinkEa) (trailing : Bytes)
    : scanLinkeaCount order (ea.bytes ++ trailing) = some ea.entries.length := by
  have whole
      : ea.bytes ++ trailing
        = ea.header ++ (ea.entries.flatMap LinkEaEntry.bytes ++ trailing) :=
    List.append_assoc _ _ _
  have length
      : (ea.bytes ++ trailing).length
        = linkEaHeaderSize + ((ea.entries.flatMap LinkEaEntry.bytes).length
          + trailing.length) := by
    rw [whole, List.length_append, ea.length_header, List.length_append]
  have room : ¬ (ea.bytes ++ trailing).length < linkEaHeaderSize := by omega
  have count : (UInt32.ofNat ea.entries.length).toNat = ea.entries.length :=
    UInt32.toNat_ofNat_of_lt' ea.countable
  have fits
      : min ea.entries.length
          (((ea.bytes ++ trailing).length - linkEaHeaderSize) / linkEaEntrySize)
        = ea.entries.length := by
    rw [Nat.min_eq_left]
    rw [Nat.le_div_iff_mul_le (by decide), Nat.mul_comm]
    have fit := entries_fit ea.entries
    omega
  obtain ⟨magic, reccount, _⟩ :=
    header_read ea order (ea.entries.flatMap LinkEaEntry.bytes ++ trailing)
  rw [← whole] at magic reccount
  have magicRead := Checked.lfuHost32_inside order
    (show 0 + 4 ≤ (ea.bytes ++ trailing).length by simp only [linkEaHeaderSize] at length; omega)
  have reccountRead := Checked.lfuHost32_inside order
    (show 4 + 4 ≤ (ea.bytes ++ trailing).length by simp only [linkEaHeaderSize] at length; omega)
  have none_iff : (UInt32.ofNat ea.entries.length == 0) = true ↔ ea.entries.length = 0 := by
    rw [beq_iff_eq, ← UInt32.toNat_inj, count]
    rfl
  have counted
      : (if (UInt32.ofNat ea.entries.length == 0) = true then some 0
          else some (min (UInt32.ofNat ea.entries.length).toNat
            (((ea.bytes ++ trailing).length - linkEaHeaderSize) / linkEaEntrySize)))
        = some ea.entries.length := by
    rw [count, fits]
    split
    · rename_i empty
      rw [none_iff.mp empty]
    · rfl
  unfold scanLinkeaCount
  rw [if_neg room, magicRead, reccountRead, magic, reccount]
  by_cases own : order = ea.order
  · have straight : linkEaMagic ≠ bswap32 linkEaMagic := by decide
    simpa [own, straight] using counted
  · simpa [own, bswap32_bswap32] using counted

/-- Of an attribute with its entries every link is read back: the number of them, and of each
the directory and the name. Which host wrote it does not matter, and neither does what stands
behind it; where nothing does, there is no further link.
-/
theorem linkea_entry_exact (wide : 256 ≤ n) (order : ByteOrder) (ea : LinkEa) (idx : Nat)
    (parent : LuFid) (name : Vector UInt8 n)
    : (∀ (inside : idx < ea.entries.length) (trailing : Bytes),
        ∃ copied : Vector UInt8 n,
          scanLinkeaEntry order (ea.bytes ++ trailing) idx parent name
            = some (ea.entries.length, parentFid ea.entries[idx], copied)
          ∧ loadString copied = some ea.entries[idx].leeName)
      ∧ (ea.entries.length ≤ idx
          → scanLinkeaEntry order ea.bytes idx parent name = some (0, parent, name)) := by
  constructor
  · intro inside trailing
    have whole
        : ea.bytes ++ trailing
          = ea.header ++ (ea.entries.flatMap LinkEaEntry.bytes ++ trailing) :=
      List.append_assoc _ _ _
    obtain ⟨read, found, place, text⟩ :=
      linkeaSeek_written wide parent name ea.entries trailing inside 0 ea.length_header
    rw [← whole] at found
    refine ⟨read.name, ?_, text⟩
    unfold scanLinkeaEntry
    rw [scanLinkeaCount_written, Option.bind_eq_bind, Option.bind_some, if_neg (by omega), found,
      ← place]
    rfl
  · intro past
    have counted := scanLinkeaCount_written order ea []
    rw [List.append_nil] at counted
    have ended :=
      linkeaSeek_past wide parent name ea.entries past 0 ea.length_header
    unfold scanLinkeaEntry
    rw [counted, Option.bind_eq_bind, Option.bind_some]
    split
    · rfl
    · rw [show ea.bytes = ea.header ++ ea.entries.flatMap LinkEaEntry.bytes from rfl, ended]
      rfl

theorem letter_short (c : UInt8) : [c].length ≤ 255 := show 1 ≤ 255 by decide

theorem letter_text {c : UInt8} (text : c ≠ 0) : ∀ x ∈ [c], x ≠ 0 := by
  intro x member
  rwa [List.mem_singleton.mp member]

/-- A link whose name is one letter. -/
def letterLink (leeParentFid : Vector UInt8 16) (c : UInt8) (text : c ≠ 0) : LinkEaEntry :=
  {
    leeParentFid
    leeName := [c]
    named := List.cons_ne_nil c []
    short := letter_short c
    text := letter_text text
  }

theorem oneLink_countable (entry : LinkEaEntry) : [entry].length < 2 ^ 32 :=
  show 1 < 2 ^ 32 by decide

/-- One link, as a host of the given order writes it. -/
def oneLink (order : ByteOrder) (entry : LinkEaEntry) : LinkEa :=
  { order, entries := [entry], countable := oneLink_countable entry }

theorem letterA_text : (0x61 : UInt8) ≠ 0 := by decide

/-- A link `a` in the directory of sequence 1. -/
def linkA : LinkEaEntry :=
  letterLink #v[0, 0, 0, 0, 0, 0, 0, 1, 0, 0, 0, 2, 0, 0, 0, 0] 0x61 letterA_text

/-- An attribute a big-endian host wrote, read on a little-endian one. -/
theorem linkea_entry_exact_foreign
    : (∃ copied : Vector UInt8 256,
        scanLinkeaEntry .little ((oneLink .big linkA).bytes ++ [0x2a]) 0
            { fSeq := 7, fOid := 7, fVer := 7 } (Vector.replicate 256 0x7a)
          = some (1, { fSeq := 1, fOid := 2, fVer := 0 }, copied)
        ∧ loadString copied = some [0x61])
      ∧ scanLinkeaEntry .little (oneLink .big linkA).bytes 1
            { fSeq := 7, fOid := 7, fVer := 7 } (Vector.replicate 256 0x7a)
          = some (0, { fSeq := 7, fOid := 7, fVer := 7 }, Vector.replicate 256 0x7a) :=
  ⟨(linkea_entry_exact (Nat.le_refl 256) .little (oneLink .big linkA) 0 _ _).1 (by decide) [0x2a],
    (linkea_entry_exact (Nat.le_refl 256) .little (oneLink .big linkA) 1 _ _).2 (by decide)⟩

end LfuScan.ScanDevice
