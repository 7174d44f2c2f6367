import LfuScan.Foundations.OpenAddressing
import LfuScan.Lustre.OnDisk
import LfuScan.Foundations.Posix

/-! The objects a coalescing scan has already handed to its callback (`struct scan_cl_seen`): a
hash table of FIDs that grows and from which nothing is taken out. Its probes end whatever was
added, so it is kept as a table that is fit for them.
-/

namespace LfuScan.Changelog

open LfuScan.Lustre LfuScan.Lustre.LustreFid LfuScan.Foundations

variable [LustreFid]

/-- Which of the allocations of a scan, in their order, succeed. -/
abbrev Memory := Nat → Bool

def scanClSeenMinShift : Nat := 10

def scanClFidZero (f : LuFid) : Bool := f.fSeq == 0 && f.fOid == 0

/-- The fields of `struct scan_cl_seen`. The empty list stands for a table that was not
allocated.
-/
structure SeenTable where
  snTab : List LuFid := []
  snShift : Nat := 0
  snUsed : Nat := 0

def SeenTable.slot (sn : SeenTable) (i : Nat) : LuFid := sn.snTab.getD i {}

/-- The loop of `scan_cl_seen_add` and of `scan_cl_seen_has`: to the slot of a FID, or to the
first one that is free. `none` is a loop that does not end.
-/
def scanClSeenProbe (sn : SeenTable) (fid : LuFid) : Option Nat :=
  probe (fun i => scanClFidZero (sn.slot i) || sn.slot i == fid)
    (fun i => (i + 1) &&& (2 ^ sn.snShift - 1)) (2 ^ sn.snShift) (llapiFidHash fid sn.snShift).val

/-- What `scan_cl_seen_add` does once there is room. -/
def scanClSeenPlace (sn : SeenTable) (fid : LuFid) : Option SeenTable :=
  (scanClSeenProbe sn fid).map fun i =>
    if scanClFidZero (sn.slot i) then
      { sn with snTab := sn.snTab.set i fid, snUsed := sn.snUsed + 1 }
    else
      sn

/-- The loop of `scan_cl_seen_grow` over the old table. What `add` returns is not looked at. -/
def scanClSeenRehash (add : Nat → SeenTable → LuFid → Option (Int × Nat × SeenTable))
    : List LuFid → Nat → SeenTable → Option (Nat × SeenTable)
  | [], allocs, bigger => some (allocs, bigger)
  | f :: rest, allocs, bigger =>
      if scanClFidZero f then
        scanClSeenRehash add rest allocs bigger
      else
        match add allocs bigger f with
        | none => none
        | some (_, allocs, bigger) => scanClSeenRehash add rest allocs bigger

/-- A larger table with the same entries, and the number of allocations so far. -/
def scanClSeenGrow (memory : Memory)
    (add : Nat → SeenTable → LuFid → Option (Int × Nat × SeenTable)) (allocs : Nat)
    (sn : SeenTable) (shift : Nat)
    : Option (Int × Nat × SeenTable) :=
  if !memory allocs then
    some (-enomem, allocs + 1, sn)
  else
    (scanClSeenRehash add sn.snTab (allocs + 1)
      { snTab := List.replicate (2 ^ shift) {}, snShift := shift }).map fun grown => (0, grown)

/-- A FID is added. Growing adds the entries to another table, which could grow in turn: `depth`
is how often.
-/
def scanClSeenAdd (memory : Memory)
    : Nat → Nat → SeenTable → LuFid → Option (Int × Nat × SeenTable)
  | 0, _, _, _ => none
  | depth + 1, allocs, sn, fid =>
      let grown :=
        if sn.snTab.isEmpty || sn.snUsed * 4 ≥ 2 ^ sn.snShift * 3 then
          scanClSeenGrow memory (scanClSeenAdd memory depth) allocs sn
            (if sn.snTab.isEmpty then scanClSeenMinShift else sn.snShift + 1)
        else
          some (0, allocs, sn)
      match grown with
      | none => none
      | some (rc, allocs, sn) =>
          if rc < 0 then some (rc, allocs, sn)
          else (scanClSeenPlace sn fid).map fun sn => (0, allocs, sn)

def scanClSeenHas (sn : SeenTable) (fid : LuFid) : Option Bool :=
  if sn.snTab.isEmpty then
    some false
  else
    (scanClSeenProbe sn fid).map fun i => !scanClFidZero (sn.slot i)

-----------------------------------------------------------------------------------------
-- A table that is fit for its probes
-----------------------------------------------------------------------------------------

/-- The key of a slot, none for a free one. -/
def fidKey? (f : LuFid) : Option LuFid := if scanClFidZero f then none else some f

omit [LustreFid] in
theorem fidKey?_eq_some {f k : LuFid} : fidKey? f = some k ↔ f = k ∧ scanClFidZero f = false := by
  unfold fidKey?
  cases scanClFidZero f <;> simp

omit [LustreFid] in
theorem isSome_fidKey? {f : LuFid} : (fidKey? f).isSome = true ↔ scanClFidZero f = false := by
  unfold fidKey?
  cases scanClFidZero f <;> simp

/-- What was added to the table. -/
def SeenTable.entries (sn : SeenTable) : List LuFid := occupants fidKey? sn.snTab

omit [LustreFid] in
theorem SeenTable.mem_entries {sn : SeenTable} {f : LuFid}
    : f ∈ sn.entries ↔ f ∈ sn.snTab ∧ scanClFidZero f = false := by
  rw [SeenTable.entries, mem_occupants, isSome_fidKey?]

/-- The table has a free slot, and every entry is in reach. -/
structure SeenTable.Seated (sn : SeenTable) : Prop where
  size : sn.snTab.length = 2 ^ sn.snShift
  least : scanClSeenMinShift ≤ sn.snShift
  used : sn.entries.length ≤ sn.snUsed
  load : 4 * sn.snUsed < 3 * 2 ^ sn.snShift + 4
  table : Reachable fidKey? (fun f => (llapiFidHash f sn.snShift).val) sn.snTab

/-- A table that was not allocated, or one that is fit. -/
def SeenTable.Ready (sn : SeenTable) : Prop := sn.snTab = [] ∨ sn.Seated

namespace SeenTable.Seated

variable {sn : SeenTable}

/-- A table as it is allocated. -/
theorem fresh {shift : Nat} (least : scanClSeenMinShift ≤ shift)
    : Seated { snTab := List.replicate (2 ^ shift) {}, snShift := shift }
      ∧ SeenTable.entries { snTab := List.replicate (2 ^ shift) {}, snShift := shift } = [] := by
  have empty : SeenTable.entries { snTab := List.replicate (2 ^ shift) {}, snShift := shift }
      = [] := occupants_fresh rfl _
  refine ⟨⟨List.length_replicate, least, ?_, ?_, ?_⟩, empty⟩
  · rw [empty]
    exact Nat.le_refl 0
  · dsimp only
    omega
  · exact .fresh rfl fun f => (llapiFidHash f shift).isLt

theorem large (seated : sn.Seated) : 1024 ≤ 2 ^ sn.snShift :=
  Nat.pow_le_pow_right (Nat.le_succ 1) seated.least

theorem not_empty (seated : sn.Seated) : sn.snTab.isEmpty = false := by
  have large := seated.large
  rw [← seated.size] at large
  exact List.isEmpty_eq_false_iff.mpr (List.ne_nil_of_length_pos (by omega))

omit [LustreFid] in
/-- The probe's test, in the terms of the table. -/
theorem stops_eq (sn : SeenTable) (fid : LuFid)
    : (fun i => scanClFidZero (sn.slot i) || sn.slot i == fid)
      = stopsFor fidKey? sn.snTab fid := by
  refine stopsFor_eq rfl (fun f => scanClFidZero f || f == fid) fun f => ?_
  cases zero : scanClFidZero f <;> simp [fidKey?, zero]

omit [LustreFid] in
theorem slot_zero_iff (sn : SeenTable) (i : Nat)
    : scanClFidZero (sn.slot i) = true ↔ slotKey fidKey? sn.snTab i = none := by
  have vacant : fidKey? {} = none := rfl
  rw [slotKey_getD vacant, fidKey?, SeenTable.slot]
  cases scanClFidZero (sn.snTab.getD i {}) <;> simp

theorem probe_eq (seated : sn.Seated) (fid : LuFid)
    : scanClSeenProbe sn fid
      = probe (stopsFor fidKey? sn.snTab fid) (fun i => (i + 1) &&& (2 ^ sn.snShift - 1))
          sn.snTab.length (llapiFidHash fid sn.snShift).val := by
  rw [scanClSeenProbe, stops_eq, seated.size]

/-- An entry is found where it is. -/
theorem probe_mem (seated : sn.Seated) {fid : LuFid} (member : fid ∈ sn.entries)
    : ∃ i, scanClSeenProbe sn fid = some i ∧ scanClFidZero (sn.slot i) = false := by
  obtain ⟨inside, proper⟩ := SeenTable.mem_entries.mp member
  obtain ⟨i, _, found⟩ := slotKey_of_mem inside (fidKey?_eq_some.mpr ⟨rfl, proper⟩)
  refine ⟨i, ?_, ?_⟩
  · rw [seated.probe_eq]
    exact seated.table.probe_found (mask_follows seated.size) found
  · rw [Bool.eq_false_iff, ne_eq, slot_zero_iff, found]
    exact Option.some_ne_none fid

/-- What is not in the table leads to a free slot that keeps it in reach. -/
theorem probe_absent (seated : sn.Seated) {fid : LuFid} (absent : fid ∉ sn.entries)
    : ∃ d < sn.snTab.length,
        scanClSeenProbe sn fid
          = some (slotAt sn.snTab.length (llapiFidHash fid sn.snShift).val d)
        ∧ slotKey fidKey? sn.snTab (slotAt sn.snTab.length (llapiFidHash fid sn.snShift).val d)
          = none
        ∧ ∀ c < d, ∃ other,
            slotKey fidKey? sn.snTab (slotAt sn.snTab.length (llapiFidHash fid sn.snShift).val c)
              = some other
            ∧ other ≠ fid := by
  have load := seated.load
  have used := seated.used
  have large := seated.large
  have room : (occupants fidKey? sn.snTab).length < sn.snTab.length := by
    rw [seated.size]
    exact Nat.lt_of_le_of_lt used (by omega)
  obtain ⟨vacancy, within, vacant⟩ := exists_vacant room
  rw [seated.probe_eq]
  refine seated.table.probe_absent (mask_follows seated.size) (fun i found => absent ?_) within
    vacant
  obtain ⟨f, inside, named⟩ := slotKey_mem found
  obtain ⟨rfl, proper⟩ := fidKey?_eq_some.mp named
  exact SeenTable.mem_entries.mpr ⟨inside, proper⟩

/-- Every probe ends, at an entry just if the FID is one. -/
theorem probe_ends (seated : sn.Seated) (fid : LuFid)
    : ∃ i, scanClSeenProbe sn fid = some i
        ∧ (scanClFidZero (sn.slot i) = false ↔ fid ∈ sn.entries) := by
  by_cases member : fid ∈ sn.entries
  · obtain ⟨i, probed, taken⟩ := seated.probe_mem member
    exact ⟨i, probed, iff_of_true taken member⟩
  · obtain ⟨d, _, probed, vacant, _⟩ := seated.probe_absent member
    refine ⟨_, probed, iff_of_false ?_ member⟩
    rw [(slot_zero_iff sn _).mpr vacant]
    exact fun free => Bool.noConfusion free

/-- Adding where there is room, of a FID that may be there already or be none. -/
theorem place (seated : sn.Seated) (room : 4 * sn.snUsed < 3 * 2 ^ sn.snShift) (fid : LuFid)
    : ∃ after, scanClSeenPlace sn fid = some after ∧ after.Seated
        ∧ after.snShift = sn.snShift ∧ after.snUsed ≤ sn.snUsed + 1
        ∧ ∀ f, f ∈ after.entries ↔ f ∈ sn.entries ∨ f = fid ∧ scanClFidZero fid = false := by
  by_cases member : fid ∈ sn.entries
  · obtain ⟨i, probed, taken⟩ := seated.probe_mem member
    refine ⟨sn, ?_, seated, rfl, Nat.le_succ _, fun f => ⟨.inl, ?_⟩⟩
    · rw [scanClSeenPlace, probed, Option.map_some, taken, if_neg Bool.false_ne_true]
    · rintro (old | ⟨rfl, _⟩)
      · exact old
      · exact member
  · obtain ⟨d, bound, probed, vacant, before⟩ := seated.probe_absent member
    have within := slotAt_lt (Nat.lt_of_le_of_lt (Nat.zero_le d) bound)
      (llapiFidHash fid sn.snShift).val d
    have placed : scanClSeenPlace sn fid
        = some
            {
              sn with
              snTab := sn.snTab.set (slotAt sn.snTab.length (llapiFidHash fid sn.snShift).val d) fid
              snUsed := sn.snUsed + 1
            } := by
      rw [scanClSeenPlace, probed, Option.map_some, if_pos ((slot_zero_iff sn _).mpr vacant)]
    have used := seated.used
    cases zero : scanClFidZero fid with
    | false =>
        have named : fidKey? fid = some fid := fidKey?_eq_some.mpr ⟨rfl, zero⟩
        have more := occupants_set within (isSome_fidKey?.mpr zero) vacant
        refine ⟨_, placed, ⟨(List.length_set ..).trans seated.size, seated.least, ?_, ?_, ?_⟩,
          rfl, Nat.le_refl _, fun f => ?_⟩
        · exact Nat.le_trans (Nat.le_of_eq more.length_eq) (Nat.succ_le_succ used)
        · dsimp only
          omega
        · exact seated.table.place named bound vacant before
        · refine more.mem_iff.trans ?_
          rw [List.mem_cons, or_comm]
          exact or_congr_right ⟨fun same => ⟨same, rfl⟩, And.left⟩
    | true =>
        -- a free slot is filled with what is no FID
        have none_ : fidKey? fid = none := by rw [fidKey?, zero, if_pos rfl]
        have same := occupants_set_vacant within none_ vacant
        refine ⟨_, placed, ⟨(List.length_set ..).trans seated.size, seated.least, ?_, ?_, ?_⟩,
          rfl, Nat.le_refl _, fun f => ?_⟩
        · exact Nat.le_trans (Nat.le_of_eq (congrArg List.length same)) (Nat.le_succ_of_le used)
        · dsimp only
          omega
        · exact seated.table.set_vacant within none_ vacant
        · unfold entries
          rw [same]
          simp

end SeenTable.Seated

section Add

variable {sn : SeenTable} (memory : Memory)

/-- Where there is room a FID is added without growing. -/
theorem scanClSeenAdd_room (seated : sn.Seated) (room : 4 * sn.snUsed < 3 * 2 ^ sn.snShift)
    (fid : LuFid) (depth allocs : Nat)
    : ∃ after, scanClSeenAdd memory (depth + 1) allocs sn fid = some (0, allocs, after)
        ∧ after.Seated ∧ after.snShift = sn.snShift ∧ after.snUsed ≤ sn.snUsed + 1
        ∧ ∀ f, f ∈ after.entries ↔ f ∈ sn.entries ∨ f = fid ∧ scanClFidZero fid = false := by
  obtain ⟨after, placed, fit⟩ := seated.place room fid
  refine ⟨after, ?_, fit⟩
  have below : ¬(sn.snTab.isEmpty || sn.snUsed * 4 ≥ 2 ^ sn.snShift * 3) = true := by
    rw [seated.not_empty, Bool.false_or, decide_eq_true_iff]
    omega
  rw [scanClSeenAdd, if_neg below]
  dsimp only
  rw [if_neg (by decide), placed]
  rfl

/-- The entries of the old table go into a larger one, which does not have to grow for it. -/
theorem scanClSeenRehash_seated (slots : List LuFid) (seated : sn.Seated)
    (room : 4 * sn.snUsed + 4 * (occupants fidKey? slots).length < 3 * 2 ^ sn.snShift)
    (depth allocs : Nat)
    : ∃ after,
        scanClSeenRehash (scanClSeenAdd memory (depth + 1)) slots allocs sn = some (allocs, after)
        ∧ after.Seated ∧ after.snShift = sn.snShift
        ∧ after.snUsed ≤ sn.snUsed + (occupants fidKey? slots).length
        ∧ ∀ f, f ∈ after.entries ↔ f ∈ sn.entries ∨ f ∈ occupants fidKey? slots := by
  induction slots generalizing sn with
  | nil => exact ⟨sn, rfl, seated, rfl, Nat.le_refl _, fun f => (or_iff_left List.not_mem_nil).symm⟩
  | cons f rest ih =>
      cases zero : scanClFidZero f with
      | true =>
          have none_ : fidKey? f = none := by rw [fidKey?, zero, if_pos rfl]
          rw [occupants_cons_vacant none_] at room ⊢
          rw [scanClSeenRehash, if_pos zero]
          exact ih seated room
      | false =>
          rw [occupants_cons (isSome_fidKey?.mpr zero), List.length_cons] at room ⊢
          obtain ⟨next, added, fit, shift, used, entries⟩ :=
            scanClSeenAdd_room memory seated (by omega) f depth allocs
          obtain ⟨after, rehashed, all, last, total, whole⟩ := ih fit (by
            rw [shift]
            omega)
          refine ⟨after, ?_, all, last.trans shift, by omega, fun other => ?_⟩
          · rw [scanClSeenRehash, zero, if_neg Bool.false_ne_true, added]
            exact rehashed
          · rw [whole, entries, List.mem_cons, or_assoc]
            exact or_congr_right (or_congr_left ⟨And.left, fun same => ⟨same, zero⟩⟩)

/-- How growing or adding ends: without memory the table stays as it was, otherwise it is fit
and has the entries that it should have.
-/
inductive SeenExit (sn : SeenTable) (start : Nat) (entries : LuFid → Prop)
    : Option (Int × Nat × SeenTable) → Prop
  | noMemory {n allocs : Nat} (full : memory n = false) (more : start ≤ allocs)
    : SeenExit sn start entries (some (-enomem, allocs, sn))
  | added {allocs : Nat} {after : SeenTable} (more : start ≤ allocs) (seated : after.Seated)
    (has : ∀ f, f ∈ after.entries ↔ entries f)
    : SeenExit sn start entries (some (0, allocs, after))

/-- Growing makes room and keeps the entries. -/
theorem scanClSeenGrow_exit {shift : Nat}
    (slots : (occupants fidKey? sn.snTab).length * 4 < 3 * 2 ^ shift)
    (least : scanClSeenMinShift ≤ shift) (depth allocs : Nat)
    : let result := scanClSeenGrow memory (scanClSeenAdd memory (depth + 1)) allocs sn shift
      SeenExit memory sn allocs (· ∈ sn.entries) result
        ∧ ∀ rc total after, result = some (rc, total, after) → rc = 0
          → 4 * after.snUsed < 3 * 2 ^ after.snShift := by
  intro result
  unfold result scanClSeenGrow
  split
  · rename_i full
    refine ⟨.noMemory (by simpa using full) (Nat.le_succ _), fun rc total after ends zero => ?_⟩
    cases ends
    cases zero
  · obtain ⟨fresh, empty⟩ := SeenTable.Seated.fresh least
    obtain ⟨after, rehashed, seated, same, used, whole⟩ :=
      scanClSeenRehash_seated memory sn.snTab fresh (by dsimp only; omega) depth (allocs + 1)
    rw [rehashed]
    refine ⟨.added (Nat.le_succ _) seated fun f => ?_, fun rc total after ends _ => ?_⟩
    · rw [whole, empty]
      exact or_iff_right List.not_mem_nil
    · cases ends
      rw [same]
      dsimp only at used ⊢
      omega

theorem scanClSeenAdd_exit (ready : sn.Ready) (fid : LuFid) (allocs : Nat)
    : SeenExit memory sn allocs (fun f => f ∈ sn.entries ∨ f = fid ∧ scanClFidZero fid = false)
        (scanClSeenAdd memory 2 allocs sn fid) := by
  by_cases roomy : sn.Seated ∧ 4 * sn.snUsed < 3 * 2 ^ sn.snShift
  · obtain ⟨after, added, seated, _, _, entries⟩ :=
      scanClSeenAdd_room memory roomy.1 roomy.2 fid 1 allocs
    rw [added]
    exact .added (Nat.le_refl _) seated entries
  -- the table is not allocated or too full
  obtain ⟨asked, shift, chosen, least, slots⟩
      : (sn.snTab.isEmpty || decide (sn.snUsed * 4 ≥ 2 ^ sn.snShift * 3)) = true
        ∧ ∃ shift,
            (if sn.snTab.isEmpty then scanClSeenMinShift else sn.snShift + 1) = shift
            ∧ scanClSeenMinShift ≤ shift
            ∧ (occupants fidKey? sn.snTab).length * 4 < 3 * 2 ^ shift := by
    rcases ready with none_ | seated
    · rw [none_]
      exact ⟨rfl, scanClSeenMinShift, rfl, Nat.le_refl _, by decide⟩
    · have full := mt (And.intro seated) roomy
      have used : (occupants fidKey? sn.snTab).length ≤ sn.snUsed := seated.used
      have load := seated.load
      have large := seated.large
      rw [seated.not_empty, Bool.false_or, decide_eq_true_iff, if_neg Bool.false_ne_true]
      refine ⟨by omega, _, rfl, Nat.le_succ_of_le seated.least, ?_⟩
      rw [Nat.pow_succ]
      omega
  obtain ⟨grown, room⟩ := scanClSeenGrow_exit memory slots least 0 allocs
  rw [scanClSeenAdd, if_pos asked, chosen]
  generalize scanClSeenGrow memory (scanClSeenAdd memory (0 + 1)) allocs sn shift = result
    at grown room
  cases grown with
  | noMemory full more => exact .noMemory full more
  | added more seated has =>
      obtain ⟨after, placed, fit, _, _, entries⟩ := seated.place (room _ _ _ rfl rfl) fid
      dsimp only
      rw [if_neg (by decide), placed]
      refine .added more fit fun f => ?_
      rw [entries, has]

end Add

theorem SeenTable.ready_empty : SeenTable.Ready {} := .inl rfl

/-- The set of a scan: a table that is fit for its probes. -/
structure ScanClSeen where
  table : SeenTable := {}
  ready : table.Ready := by exact SeenTable.ready_empty

theorem scanClSeenHas_ends {sn : SeenTable} (ready : sn.Ready) (fid : LuFid)
    : scanClSeenHas sn fid = some (decide (fid ∈ sn.entries)) := by
  rcases ready with none_ | seated
  · simp [scanClSeenHas, SeenTable.entries, none_, occupants]
  · obtain ⟨i, probed, ends⟩ := seated.probe_ends fid
    rw [scanClSeenHas, seated.not_empty, if_neg Bool.false_ne_true, probed, Option.map_some,
      Option.some.injEq, Bool.eq_iff_iff, Bool.not_eq_true', ends, decide_eq_true_iff]

theorem scanClSeenHas_isSome {sn : SeenTable} (ready : sn.Ready) (fid : LuFid)
    : (scanClSeenHas sn fid).isSome := by
  rw [scanClSeenHas_ends ready]
  rfl

theorem scanClSeenAdd_isSome {sn : SeenTable} (ready : sn.Ready) (memory : Memory) (fid : LuFid)
    (allocs : Nat)
    : (scanClSeenAdd memory 2 allocs sn fid).isSome := by
  have ends := scanClSeenAdd_exit memory ready fid allocs
  generalize scanClSeenAdd memory 2 allocs sn fid = result at ends ⊢
  cases ends <;> rfl

theorem scanClSeenAdd_ready {sn : SeenTable} (ready : sn.Ready) (memory : Memory) (fid : LuFid)
    (allocs : Nat)
    : ((scanClSeenAdd memory 2 allocs sn fid).get
        (scanClSeenAdd_isSome ready memory fid allocs)).2.2.Ready := by
  have ends := scanClSeenAdd_exit memory ready fid allocs
  generalize_proofs some
  generalize scanClSeenAdd memory 2 allocs sn fid = result at ends some ⊢
  cases ends with
  | noMemory => exact ready
  | added more seated has => exact .inr seated

/-- Whether a FID was added. -/
def ScanClSeen.has (sn : ScanClSeen) (fid : LuFid) : Bool :=
  (scanClSeenHas sn.table fid).get (scanClSeenHas_isSome sn.ready fid)

/-- What `scan_cl_seen_add` returns, the number of allocations so far and the set. -/
def ScanClSeen.add (memory : Memory) (allocs : Nat) (sn : ScanClSeen) (fid : LuFid)
    : Int × Nat × ScanClSeen :=
  let result :=
    (scanClSeenAdd memory 2 allocs sn.table fid).get
      (scanClSeenAdd_isSome sn.ready memory fid allocs)
  (result.1, result.2.1, ⟨result.2.2, scanClSeenAdd_ready sn.ready memory fid allocs⟩)

theorem ScanClSeen.has_iff (sn : ScanClSeen) (fid : LuFid)
    : sn.has fid = true ↔ fid ∈ sn.table.entries := by
  rw [ScanClSeen.has]
  simp only [scanClSeenHas_ends sn.ready, Option.get_some, decide_eq_true_iff]

/-- How adding ends. A FID that is none is not remembered. -/
structure ScanClSeen.Added (memory : Memory) (allocs : Nat) (sn : ScanClSeen) (fid : LuFid)
    (result : Int × Nat × ScanClSeen)
    : Prop where
  more : allocs ≤ result.2.1
  failed : result.1 < 0 → result.1 = -enomem ∧ ∃ n, memory n = false
  has
    : ¬result.1 < 0
      → ∀ other, result.2.2.has other
          = (sn.has other || (other == fid && !scanClFidZero fid))

theorem ScanClSeen.add_exit (memory : Memory) (allocs : Nat) (sn : ScanClSeen) (fid : LuFid)
    : ScanClSeen.Added memory allocs sn fid (sn.add memory allocs fid) := by
  have ends := scanClSeenAdd_exit memory sn.ready fid allocs
  obtain ⟨result, added⟩ :=
    Option.isSome_iff_exists.mp (scanClSeenAdd_isSome sn.ready memory fid allocs)
  have rc : (sn.add memory allocs fid).1 = result.1 := by simp only [add, added, Option.get_some]
  have total : (sn.add memory allocs fid).2.1 = result.2.1 := by
    simp only [add, added, Option.get_some]
  have table : (sn.add memory allocs fid).2.2.table = result.2.2 := by
    simp only [add, added, Option.get_some]
  rw [added] at ends
  refine ⟨?_, fun failed => ?_, fun ok other => ?_⟩
  · rw [total]
    cases ends with
    | noMemory full more => exact more
    | added more => exact more
  · rw [rc] at failed ⊢
    cases ends with
    | noMemory full more => exact ⟨rfl, _, full⟩
    | added more => exact absurd failed (Int.lt_irrefl 0)
  · rw [rc] at ok
    rw [Bool.eq_iff_iff, ScanClSeen.has_iff, table, Bool.or_eq_true, ScanClSeen.has_iff,
      Bool.and_eq_true, beq_iff_eq, Bool.not_eq_true']
    cases ends with
    | noMemory full more => exact absurd (show -enomem < 0 by decide) ok
    | added more seated has => exact has other

end LfuScan.Changelog
