import Mathlib.Data.List.Nodup
import LfuScan.Find.CookieFile
import LfuScan.Foundations.OpenAddressing
import LfuScan.Foundations.Posix

/-! The directory map of a device scan: a hash table from a directory's FID to its parent and
its name there, filled by a pass of its own. Whatever order the directories come in, each is
found afterwards, and nothing else is.
-/

namespace LfuScan.Find

open LfuScan.Foundations LfuScan.Lustre

def scanDirmapMin : Nat := 1024

/-- A directory's place: its name in its parent. A name is its bytes before the terminator. -/
structure ScanDirent where
  sdFid : LuFid := {}
  sdParent : LuFid := {}
  sdName : Bytes := []
deriving DecidableEq, Repr

/-- The map. The empty list stands for a table that was not allocated. -/
structure ScanDirmap where
  dmTab : List ScanDirent := []
  dmCap : Nat := 0
  dmUsed : Nat := 0
deriving DecidableEq, Repr

def scanDirmapHash (f : LuFid) (cap : Nat) : Nat :=
  let h := f.fSeq * 0x9e3779b97f4a7c15 + f.fOid.toUInt64
  let h := h ^^^ (h >>> 29)
  let h := h * 0xbf58476d1ce4e5b9
  let h := h ^^^ (h >>> 32)
  h.toNat &&& (cap - 1)

def scanFidEq (a b : LuFid) : Bool := a.fSeq == b.fSeq && a.fOid == b.fOid

def scanFidZero (f : LuFid) : Bool := f.fSeq == 0 && f.fOid == 0

def ScanDirmap.slot (m : ScanDirmap) (i : Nat) : ScanDirent := m.dmTab.getD i {}

/-- The loop of `scan_dirmap_put` and of `scan_dirmap_get`: to the slot of a FID, or to the
first one that is free. `none` is a loop that does not end.
-/
def scanDirmapProbe (m : ScanDirmap) (fid : LuFid) : Option Nat :=
  probe (fun i => scanFidZero (m.slot i).sdFid || scanFidEq (m.slot i).sdFid fid)
    (fun i => (i + 1) &&& (m.dmCap - 1)) m.dmCap (scanDirmapHash fid m.dmCap)

/-- What `scan_dirmap_put` does once there is room; the same directory twice is not an error. -/
def scanDirmapPlace (m : ScanDirmap) (e : ScanDirent) : Option ScanDirmap :=
  (scanDirmapProbe m e.sdFid).map fun i =>
    if scanFidZero (m.slot i).sdFid then
      {
        m with
        dmTab := m.dmTab.set i { e with sdName := e.sdName.take nameMax }
        dmUsed := m.dmUsed + 1
      }
    else
      m

/-- The loop of `scan_dirmap_grow` over the old table. What `put` returns is not looked at. -/
def scanDirmapRehash (put : ScanDirmap → ScanDirent → Option (Int × ScanDirmap))
    : List ScanDirent → ScanDirmap → Option ScanDirmap
  | [], bigger => some bigger
  | e :: rest, bigger =>
      if scanFidZero e.sdFid then
        scanDirmapRehash put rest bigger
      else
        match put bigger e with
        | none => none
        | some (_, bigger) => scanDirmapRehash put rest bigger

/-- `calloc` says which tables can be allocated. The count of the entries stays as it is. -/
def scanDirmapGrow (calloc : Nat → Bool)
    (put : ScanDirmap → ScanDirent → Option (Int × ScanDirmap)) (m : ScanDirmap) (cap : Nat)
    : Option (Int × ScanDirmap) :=
  if !calloc cap then
    some (-enomem, m)
  else
    (scanDirmapRehash put m.dmTab { dmTab := List.replicate cap {}, dmCap := cap }).map
      fun bigger => (0, { m with dmTab := bigger.dmTab, dmCap := bigger.dmCap })

/-- A directory with its parent and its name is added. Growing puts the entries into another
map, which could grow in turn: `depth` is how often.
-/
def scanDirmapPut (calloc : Nat → Bool)
    : Nat → ScanDirmap → ScanDirent → Option (Int × ScanDirmap)
  | 0, _, _ => none
  | depth + 1, m, e =>
      let grown :=
        if m.dmUsed * 4 ≥ m.dmCap * 3 then
          scanDirmapGrow calloc (scanDirmapPut calloc depth) m (m.dmCap * 2)
        else
          some (0, m)
      match grown with
      | none => none
      | some (rc, m) =>
          if rc < 0 then some (rc, m) else (scanDirmapPlace m e).map fun m => (0, m)

def scanDirmapGet (m : ScanDirmap) (fid : LuFid) : Option (Option ScanDirent) :=
  if m.dmTab.isEmpty then
    some none
  else
    (scanDirmapProbe m fid).map fun i =>
      if scanFidZero (m.slot i).sdFid then none else some (m.slot i)

/-- What the map's callback reads of a record: the mode and whether the target gave it, the
FIDs and the marks that they are valid, the mark of a shard, and the name.
-/
structure ScanDirRec where
  statxMode : Bool
  stxMode : UInt16
  scanFid : Bool
  scanParent : Bool
  scanLmvShard : Bool
  lfsrFid : LuFid
  lfsrParentFid : LuFid
  lfsrName : Option Bytes

/-- One record of the pass. A shard is mapped with no name of its own. -/
def scanDirmapCb (calloc : Nat → Bool) (rec : ScanDirRec) (m : ScanDirmap)
    : Option (Int × ScanDirmap) :=
  if !rec.statxMode || !sIsdir rec.stxMode.toUInt32 then
    some (0, m)
  else if !(rec.scanFid && rec.scanParent) then
    some (0, m)
  else
    match rec.lfsrName with
    | none => some (0, m)
    | some name =>
        if rec.scanLmvShard then
          scanDirmapPut calloc 2 m
            { sdFid := rec.lfsrFid, sdParent := rec.lfsrParentFid, sdName := [] }
        else
          scanDirmapPut calloc 2 m
            { sdFid := rec.lfsrFid, sdParent := rec.lfsrParentFid, sdName := name }

def scanDirmapPrepass (calloc : Nat → Bool) : Int × ScanDirmap :=
  if !calloc scanDirmapMin then
    (-enomem, {})
  else
    (0, { dmTab := List.replicate scanDirmapMin {}, dmCap := scanDirmapMin })

/-- The pass: every record to the callback, until one is refused. -/
def scanDirmapPass (calloc : Nat → Bool) : List ScanDirRec → ScanDirmap → Option (Int × ScanDirmap)
  | [], m => some (0, m)
  | rec :: rest, m =>
      match scanDirmapCb calloc rec m with
      | none => none
      | some (rc, m) => if rc ≠ 0 then some (rc, m) else scanDirmapPass calloc rest m

/-- What tells two FIDs apart. -/
def fidKey (f : LuFid) : UInt64 × UInt32 := (f.fSeq, f.fOid)

/-- The key of a slot, none for a free one. -/
def direntKey? (e : ScanDirent) : Option (UInt64 × UInt32) :=
  if scanFidZero e.sdFid then none else some (fidKey e.sdFid)

def homeSlot (cap : Nat) (k : UInt64 × UInt32) : Nat := scanDirmapHash ⟨k.1, k.2, 0⟩ cap

theorem scanFidEq_iff {a b : LuFid} : scanFidEq a b = true ↔ fidKey a = fidKey b := by
  simp [scanFidEq, fidKey]

theorem scanFidZero_iff {f : LuFid} : scanFidZero f = true ↔ fidKey f = (0, 0) := by
  simp [scanFidZero, fidKey]

theorem direntKey?_eq_some {e : ScanDirent} {k : UInt64 × UInt32}
    : direntKey? e = some k ↔ fidKey e.sdFid = k ∧ k ≠ (0, 0) := by
  unfold direntKey?
  by_cases zero : scanFidZero e.sdFid = true
  · rw [if_pos zero]
    constructor
    · intro none_
      cases none_
    · rintro ⟨rfl, proper⟩
      exact absurd (scanFidZero_iff.mp zero) proper
  · rw [if_neg zero, Option.some.injEq]
    constructor
    · rintro rfl
      exact ⟨rfl, fun same => zero (scanFidZero_iff.mpr same)⟩
    · exact fun both => both.1

theorem isSome_direntKey? {e : ScanDirent}
    : (direntKey? e).isSome = true ↔ scanFidZero e.sdFid = false := by
  unfold direntKey?
  cases scanFidZero e.sdFid <;> simp

theorem homeSlot_lt {cap : Nat} (positive : 0 < cap) (k : UInt64 × UInt32)
    : homeSlot cap k < cap := by
  unfold homeSlot scanDirmapHash
  have bound (h : Nat) : h &&& (cap - 1) ≤ cap - 1 := Nat.and_le_right
  exact Nat.lt_of_le_of_lt (bound _) (by omega)

/-- The probe's test, in the terms of the table. -/
theorem stops_eq (m : ScanDirmap) (fid : LuFid)
    : (fun i => scanFidZero (m.slot i).sdFid || scanFidEq (m.slot i).sdFid fid)
      = stopsFor direntKey? m.dmTab (fidKey fid) := by
  have vacant : direntKey? {} = none := rfl
  refine stopsFor_eq vacant (fun e => scanFidZero e.sdFid || scanFidEq e.sdFid fid) fun e => ?_
  cases zero : scanFidZero e.sdFid <;> simp [direntKey?, zero, scanFidEq_iff]

-----------------------------------------------------------------------------------------
-- The map holds the directories
-----------------------------------------------------------------------------------------

/-- The map holds just these directories, and has room. -/
structure Mapped (m : ScanDirmap) (dirs : List ScanDirent) : Prop where
  size : m.dmTab.length = m.dmCap
  power : ∃ bits, m.dmCap = 2 ^ bits
  least : 4 ≤ m.dmCap
  used : m.dmUsed = dirs.length
  load : 4 * dirs.length < 3 * m.dmCap + 4
  table : Reachable direntKey? (homeSlot m.dmCap) m.dmTab
  entries : (occupants direntKey? m.dmTab).Perm dirs
  short : ∀ e ∈ dirs, e.sdName.length ≤ nameMax

namespace Mapped

variable {m : ScanDirmap} {dirs : List ScanDirent}

theorem of_perm (mapped : Mapped m dirs) {others : List ScanDirent} (same : dirs.Perm others)
    : Mapped m others where
  size := mapped.size
  power := mapped.power
  least := mapped.least
  used := mapped.used.trans same.length_eq
  load := same.length_eq ▸ mapped.load
  table := mapped.table
  entries := mapped.entries.trans same
  short e member := mapped.short e (same.mem_iff.mpr member)

/-- A table as it is allocated. -/
theorem fresh {cap : Nat} (power : ∃ bits, cap = 2 ^ bits) (least : 4 ≤ cap)
    : Mapped { dmTab := List.replicate cap {}, dmCap := cap } [] where
  size := List.length_replicate
  power := power
  least := least
  used := rfl
  load := by
    rw [List.length_nil]
    omega
  table := .fresh rfl fun k => homeSlot_lt (Nat.lt_of_lt_of_le (by decide) least) k
  entries := by rw [occupants_fresh rfl]
  short e member := by cases member

theorem mask (mapped : Mapped m dirs) : ∀ i < m.dmTab.length,
    (i + 1) &&& (m.dmCap - 1) = (i + 1) % m.dmTab.length := by
  obtain ⟨bits, power⟩ := mapped.power
  rw [power]
  exact mask_follows (mapped.size.trans power)

theorem probe_eq (mapped : Mapped m dirs) (fid : LuFid)
    : scanDirmapProbe m fid
      = probe (stopsFor direntKey? m.dmTab (fidKey fid)) (fun i => (i + 1) &&& (m.dmCap - 1))
          m.dmTab.length (homeSlot m.dmCap (fidKey fid)) := by
  rw [scanDirmapProbe, stops_eq, mapped.size]
  rfl

theorem mem_iff (mapped : Mapped m dirs) {e : ScanDirent}
    : e ∈ dirs ↔ e ∈ m.dmTab ∧ scanFidZero e.sdFid = false := by
  rw [← mapped.entries.mem_iff, mem_occupants, isSome_direntKey?]

/-- A directory that is in the map has a slot. -/
theorem slot_of_mem (mapped : Mapped m dirs) {e : ScanDirent} (member : e ∈ dirs)
    : ∃ i, m.slot i = e ∧ slotKey direntKey? m.dmTab i = some (fidKey e.sdFid) := by
  obtain ⟨inside, proper⟩ := mapped.mem_iff.mp member
  have named : direntKey? e = some (fidKey e.sdFid) := by
    rw [direntKey?, if_neg (by rw [proper]; exact Bool.false_ne_true)]
  obtain ⟨i, here, found⟩ := slotKey_of_mem inside named
  refine ⟨i, ?_, found⟩
  rw [ScanDirmap.slot, List.getD_eq_getElem?_getD, here]
  rfl

/-- No slot has the key of a directory that is not in the map. -/
theorem no_slot (mapped : Mapped m dirs) {k : UInt64 × UInt32}
    (absent : ∀ e ∈ dirs, fidKey e.sdFid ≠ k) (i : Nat)
    : slotKey direntKey? m.dmTab i ≠ some k := by
  intro found
  obtain ⟨e, inside, named⟩ := slotKey_mem found
  obtain ⟨same, proper⟩ := direntKey?_eq_some.mp named
  refine absent e (mapped.mem_iff.mpr ⟨inside, ?_⟩) same
  rw [Bool.eq_false_iff]
  exact fun zero => proper (same ▸ scanFidZero_iff.mp zero)

/-- There is a free slot. -/
theorem vacancy (mapped : Mapped m dirs)
    : ∃ i < m.dmTab.length, slotKey direntKey? m.dmTab i = none := by
  refine exists_vacant ?_
  have load := mapped.load
  have least := mapped.least
  rw [mapped.entries.length_eq, mapped.size]
  omega

theorem slot_zero_iff (m : ScanDirmap) (i : Nat)
    : scanFidZero (m.slot i).sdFid = true ↔ slotKey direntKey? m.dmTab i = none := by
  have vacant : direntKey? {} = none := rfl
  rw [slotKey_getD vacant, direntKey?, ScanDirmap.slot]
  cases scanFidZero (m.dmTab.getD i {}).sdFid <;> simp

/-- A probe for a directory that is not there ends at a free slot that keeps it in reach. -/
theorem probe_free (mapped : Mapped m dirs) {fid : LuFid}
    (absent : ∀ e ∈ dirs, fidKey e.sdFid ≠ fidKey fid)
    : ∃ d < m.dmTab.length,
        scanDirmapProbe m fid = some (slotAt m.dmTab.length (homeSlot m.dmCap (fidKey fid)) d)
        ∧ slotKey direntKey? m.dmTab (slotAt m.dmTab.length (homeSlot m.dmCap (fidKey fid)) d)
          = none
        ∧ ∀ c < d, ∃ other,
            slotKey direntKey? m.dmTab (slotAt m.dmTab.length (homeSlot m.dmCap (fidKey fid)) c)
              = some other
            ∧ other ≠ fidKey fid := by
  obtain ⟨vacancy, within, vacant⟩ := mapped.vacancy
  rw [mapped.probe_eq]
  exact mapped.table.probe_absent mapped.mask (mapped.no_slot absent) within vacant

theorem not_empty (mapped : Mapped m dirs) : m.dmTab.isEmpty = false := by
  have least := mapped.least
  rw [← mapped.size] at least
  exact List.isEmpty_eq_false_iff.mpr (List.ne_nil_of_length_pos (by omega))

/-- A directory of the map is found. -/
theorem get_mem (mapped : Mapped m dirs) {e : ScanDirent} (member : e ∈ dirs) {fid : LuFid}
    (own : fidKey e.sdFid = fidKey fid)
    : scanDirmapGet m fid = some (some e) := by
  obtain ⟨i, here, found⟩ := mapped.slot_of_mem member
  rw [own] at found
  have probed := mapped.table.probe_found mapped.mask found
  rw [← mapped.probe_eq] at probed
  have proper : scanFidZero (m.slot i).sdFid = false := by
    rw [here]
    exact (mapped.mem_iff.mp member).2
  rw [scanDirmapGet, mapped.not_empty, if_neg Bool.false_ne_true, probed, Option.map_some, proper,
    if_neg Bool.false_ne_true, here]

/-- Any other is not. -/
theorem get_absent (mapped : Mapped m dirs) {fid : LuFid}
    (absent : ∀ e ∈ dirs, fidKey e.sdFid ≠ fidKey fid)
    : scanDirmapGet m fid = some none := by
  obtain ⟨d, _, probed, vacant, _⟩ := mapped.probe_free absent
  rw [scanDirmapGet, mapped.not_empty, if_neg Bool.false_ne_true, probed, Option.map_some,
    if_pos ((slot_zero_iff m _).mpr vacant)]

/-- A new directory is added while there is room. -/
theorem place (mapped : Mapped m dirs) (room : 4 * dirs.length < 3 * m.dmCap) {e : ScanDirent}
    (proper : fidKey e.sdFid ≠ (0, 0)) (absent : ∀ d ∈ dirs, fidKey d.sdFid ≠ fidKey e.sdFid)
    (short : e.sdName.length ≤ nameMax)
    : ∃ after, scanDirmapPlace m e = some after ∧ Mapped after (e :: dirs)
        ∧ after.dmCap = m.dmCap := by
  obtain ⟨d, bound, probed, vacant, before⟩ := mapped.probe_free absent
  have named : direntKey? e = some (fidKey e.sdFid) := direntKey?_eq_some.mpr ⟨rfl, proper⟩
  have kept : { e with sdName := e.sdName.take nameMax } = e := by
    rw [List.take_of_length_le short]
  have within := slotAt_lt (Nat.lt_of_le_of_lt (Nat.zero_le d) bound)
    (homeSlot m.dmCap (fidKey e.sdFid)) d
  refine ⟨{ m with
    dmTab := m.dmTab.set (slotAt m.dmTab.length (homeSlot m.dmCap (fidKey e.sdFid)) d) e
    dmUsed := m.dmUsed + 1 }, ?_, ?_, rfl⟩
  · rw [scanDirmapPlace, probed, Option.map_some, if_pos ((slot_zero_iff m _).mpr vacant), kept]
  · refine ⟨?_, mapped.power, mapped.least, ?_, ?_, ?_, ?_, ?_⟩
    · exact (List.length_set ..).trans mapped.size
    · exact congrArg (· + 1) mapped.used
    · rw [List.length_cons]
      dsimp only
      omega
    · exact mapped.table.place named bound vacant before
    · exact (occupants_set within (named ▸ rfl) vacant).trans (mapped.entries.cons e)
    · intro other member
      rcases List.mem_cons.mp member with rfl | member
      · exact short
      · exact mapped.short other member

end Mapped

-----------------------------------------------------------------------------------------
-- Filling the map
-----------------------------------------------------------------------------------------

/-- Directories a map can hold: their FIDs differ, none is zero, and their names fit. -/
structure Mappable (dirs : List ScanDirent) : Prop where
  distinct : (dirs.map fun e => fidKey e.sdFid).Nodup
  proper : ∀ e ∈ dirs, fidKey e.sdFid ≠ (0, 0)
  short : ∀ e ∈ dirs, e.sdName.length ≤ nameMax

namespace Mappable

variable {e : ScanDirent} {dirs others : List ScanDirent}

theorem of_perm (mappable : Mappable dirs) (same : dirs.Perm others) : Mappable others where
  distinct := (same.map _).nodup_iff.mp mappable.distinct
  proper e member := mappable.proper e (same.mem_iff.mpr member)
  short e member := mappable.short e (same.mem_iff.mpr member)

theorem tail (mappable : Mappable (e :: dirs)) : Mappable dirs where
  distinct := (List.nodup_cons.mp mappable.distinct).2
  proper d member := mappable.proper d (List.mem_cons_of_mem e member)
  short d member := mappable.short d (List.mem_cons_of_mem e member)

theorem of_append_right (mappable : Mappable (dirs ++ others)) : Mappable others := by
  induction dirs with
  | nil => exact mappable
  | cons e rest ih => exact ih mappable.tail

theorem head_absent (mappable : Mappable (e :: dirs))
    : ∀ d ∈ dirs, fidKey d.sdFid ≠ fidKey e.sdFid := by
  intro d member same
  exact (List.nodup_cons.mp mappable.distinct).1 (List.mem_map.mpr ⟨d, member, same⟩)

/-- Two directories with one FID are the same. -/
theorem eq_of_key (mappable : Mappable dirs) {d : ScanDirent} (left : d ∈ dirs) (right : e ∈ dirs)
    (same : fidKey d.sdFid = fidKey e.sdFid)
    : d = e :=
  List.inj_on_of_nodup_map mappable.distinct left right same

end Mappable

section Fill

variable (calloc : Nat → Bool) {m : ScanDirmap} {dirs : List ScanDirent}

/-- Where there is room a new directory is added without growing. -/
theorem scanDirmapPut_room (mapped : Mapped m dirs) (room : 4 * dirs.length < 3 * m.dmCap)
    {e : ScanDirent} (mappable : Mappable (e :: dirs)) (depth : Nat)
    : ∃ after, scanDirmapPut calloc (depth + 1) m e = some (0, after) ∧ Mapped after (e :: dirs)
        ∧ after.dmCap = m.dmCap := by
  obtain ⟨after, placed, holds, same⟩ := mapped.place room
    (mappable.proper e List.mem_cons_self) mappable.head_absent
    (mappable.short e List.mem_cons_self)
  refine ⟨after, ?_, holds, same⟩
  have below : ¬m.dmUsed * 4 ≥ m.dmCap * 3 := by
    rw [mapped.used]
    omega
  rw [scanDirmapPut, if_neg below]
  dsimp only
  rw [if_neg (by decide), placed]
  rfl

/-- The entries of the old table go into a larger one, which does not have to grow for it. -/
theorem scanDirmapRehash_mapped (slots : List ScanDirent) {bigger : ScanDirmap}
    {done : List ScanDirent} (mapped : Mapped bigger done)
    (mappable : Mappable (occupants direntKey? slots ++ done))
    (room : 4 * (occupants direntKey? slots).length + 4 * done.length < 3 * bigger.dmCap)
    (depth : Nat)
    : ∃ after,
        scanDirmapRehash (scanDirmapPut calloc (depth + 1)) slots bigger = some after
        ∧ Mapped after (occupants direntKey? slots ++ done)
        ∧ after.dmCap = bigger.dmCap := by
  induction slots generalizing bigger done with
  | nil => exact ⟨bigger, rfl, mapped, rfl⟩
  | cons e rest ih =>
      by_cases zero : scanFidZero e.sdFid = true
      · have none_ : direntKey? e = none := if_pos zero
        rw [occupants_cons_vacant none_] at mappable room ⊢
        rw [scanDirmapRehash, if_pos zero]
        exact ih mapped mappable room
      · have named := isSome_direntKey?.mpr (Bool.eq_false_iff.mpr zero)
        rw [occupants_cons named] at mappable room ⊢
        have around : (e :: occupants direntKey? rest ++ done).Perm
            (occupants direntKey? rest ++ e :: done) := List.perm_middle.symm
        have mappable := mappable.of_perm around
        rw [List.length_cons] at room
        obtain ⟨next, put, holds, same⟩ := scanDirmapPut_room calloc mapped (by omega)
          mappable.of_append_right depth
        obtain ⟨after, rehashed, all, cap⟩ := ih holds mappable (by
          rw [List.length_cons, same]
          omega)
        refine ⟨after, ?_, all.of_perm around.symm, cap.trans same⟩
        rw [scanDirmapRehash, if_neg zero, put]
        exact rehashed

variable {calloc}

/-- Growing keeps every directory and makes room. -/
theorem scanDirmapGrow_mapped (never : ∀ cap, calloc cap = true) (mapped : Mapped m dirs)
    (mappable : Mappable dirs) (depth : Nat)
    : ∃ after,
        scanDirmapGrow calloc (scanDirmapPut calloc (depth + 1)) m (m.dmCap * 2) = some (0, after)
        ∧ Mapped after dirs
        ∧ after.dmCap = m.dmCap * 2 := by
  have least := mapped.least
  have load := mapped.load
  have power : ∃ bits, m.dmCap * 2 = 2 ^ bits := by
    obtain ⟨bits, power⟩ := mapped.power
    exact ⟨bits + 1, by rw [power, Nat.pow_succ]⟩
  have fresh := Mapped.fresh power (by omega)
  have entries := mapped.entries
  obtain ⟨bigger, rehashed, holds, cap⟩ :=
    scanDirmapRehash_mapped calloc m.dmTab fresh
      (by rw [List.append_nil]; exact mappable.of_perm entries.symm)
      (by rw [entries.length_eq, List.length_nil]; dsimp only; omega) depth
  rw [List.append_nil] at holds
  refine ⟨{ m with dmTab := bigger.dmTab, dmCap := bigger.dmCap }, ?_, ?_, cap⟩
  · rw [scanDirmapGrow, never, rehashed]
    rfl
  · exact {
      size := holds.size
      power := holds.power
      least := holds.least
      used := mapped.used
      load := entries.length_eq ▸ holds.load
      table := holds.table
      entries := holds.entries.trans entries
      short := mapped.short
    }

/-- A new directory is added, whether or not the table has to grow for it. -/
theorem scanDirmapPut_mapped (never : ∀ cap, calloc cap = true) (mapped : Mapped m dirs)
    {e : ScanDirent} (mappable : Mappable (e :: dirs))
    : ∃ after, scanDirmapPut calloc 2 m e = some (0, after) ∧ Mapped after (e :: dirs) := by
  by_cases full : m.dmUsed * 4 ≥ m.dmCap * 3
  · obtain ⟨grown, growing, holds, cap⟩ := scanDirmapGrow_mapped never mapped mappable.tail 0
    have load := mapped.load
    have least := mapped.least
    obtain ⟨after, placed, all, _⟩ := holds.place (by rw [cap]; omega)
      (mappable.proper e List.mem_cons_self) mappable.head_absent
      (mappable.short e List.mem_cons_self)
    refine ⟨after, ?_, all⟩
    rw [scanDirmapPut, if_pos full, growing]
    dsimp only
    rw [if_neg (by decide), placed]
    rfl
  · rw [mapped.used] at full
    obtain ⟨after, put, holds, _⟩ := scanDirmapPut_room calloc mapped (by omega)
      mappable 1
    exact ⟨after, put, holds⟩

/-- The directory a record stands for: none, unless it says that it is one and where it is. -/
def mappedDir? (rec : ScanDirRec) : Option ScanDirent :=
  if rec.statxMode && sIsdir rec.stxMode.toUInt32 && rec.scanFid && rec.scanParent then
    rec.lfsrName.map fun name =>
      {
        sdFid := rec.lfsrFid
        sdParent := rec.lfsrParentFid
        sdName := if rec.scanLmvShard then [] else name
      }
  else
    none

theorem scanDirmapCb_eq (rec : ScanDirRec) (m : ScanDirmap)
    : scanDirmapCb calloc rec m
      = match mappedDir? rec with
        | none => some (0, m)
        | some e => scanDirmapPut calloc 2 m e := by
  unfold scanDirmapCb mappedDir?
  generalize sIsdir rec.stxMode.toUInt32 = directory
  cases rec.statxMode <;> cases directory <;> cases rec.scanFid <;> cases rec.scanParent <;>
    cases rec.lfsrName <;> cases rec.scanLmvShard <;> rfl

/-- After the pass the map holds the directories of the records. -/
theorem scanDirmapPass_mapped (never : ∀ cap, calloc cap = true) (recs : List ScanDirRec)
    (mapped : Mapped m dirs) (mappable : Mappable (recs.filterMap mappedDir? ++ dirs))
    : ∃ after, scanDirmapPass calloc recs m = some (0, after)
        ∧ Mapped after (recs.filterMap mappedDir? ++ dirs) := by
  induction recs generalizing m dirs with
  | nil => exact ⟨m, rfl, mapped⟩
  | cons rec rest ih =>
      rw [scanDirmapPass, scanDirmapCb_eq]
      cases found : mappedDir? rec with
      | none =>
          rw [List.filterMap_cons_none found] at mappable ⊢
          exact ih mapped mappable
      | some e =>
          rw [List.filterMap_cons_some found] at mappable ⊢
          have around : (e :: rest.filterMap mappedDir? ++ dirs).Perm
              (rest.filterMap mappedDir? ++ e :: dirs) := List.perm_middle.symm
          have mappable := mappable.of_perm around
          obtain ⟨next, put, holds⟩ := scanDirmapPut_mapped never mapped mappable.of_append_right
          obtain ⟨after, passed, all⟩ := ih holds mappable
          refine ⟨after, ?_, all.of_perm around.symm⟩
          dsimp only
          rw [put]
          exact passed

/-- The map a pass makes. -/
theorem scanDirmap_mapped (never : ∀ cap, calloc cap = true) (recs : List ScanDirRec)
    (mappable : Mappable (recs.filterMap mappedDir?))
    : ∃ m, scanDirmapPass calloc recs (scanDirmapPrepass calloc).2 = some (0, m)
        ∧ Mapped m (recs.filterMap mappedDir?) := by
  have fresh : Mapped (scanDirmapPrepass calloc).2 [] := by
    rw [scanDirmapPrepass, never]
    exact Mapped.fresh ⟨10, rfl⟩ (by decide)
  obtain ⟨m, passed, holds⟩ := scanDirmapPass_mapped never recs fresh (by
    rw [List.append_nil]
    exact mappable)
  rw [List.append_nil] at holds
  exact ⟨m, passed, holds⟩

end Fill

end LfuScan.Find
