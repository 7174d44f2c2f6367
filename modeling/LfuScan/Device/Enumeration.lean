import LfuScan.Device.Zfs
import LfuScan.Foundations.Posix

/-! The chunks of an object set. A chunk is a walk by `dmu_object_next` from just before its
first number; whatever error ends the walk is taken for the end of the object set.
-/

namespace LfuScan.Device

open LfuScan.Lustre LfuScan.Filter LfuScan.Core LfuScan.Foundations

/-- The allocated objects, and the positions from which the next object cannot be looked up
because a read fails.
-/
structure ObjectSet where
  objects : UInt64 → Option ZfsObject
  readError : UInt64 → Option Int
  notEnd : ∀ position err, readError position = some err → err ≠ esrch

/-- The next object above a position. -/
structure ObjectSet.Next (os : ObjectSet) (position id : UInt64) (obj : ZfsObject) : Prop where
  above : position < id
  allocated : os.objects id = some obj
  least : ∀ other, position < other → other < id → os.objects other = none

/-- The lookups from a position on: a read error, the end of the object set, or the smallest
allocated number above and what follows it.
-/
structure Enumerates (z : LfuZfs) (os : ObjectSet) : Prop where
  failed
    : ∀ position err,
        os.readError position = some err
        → ∃ rest, z.nextObjects position = .failed err :: rest
  ended
    : ∀ position,
        os.readError position = none
        → (∀ id, position < id → os.objects id = none)
        → ∃ rest, z.nextObjects position = .failed esrch :: rest
  next
    : ∀ position id obj,
        os.readError position = none
        → os.Next position id obj
        → z.nextObjects position = .object id obj :: z.nextObjects id

/-- `lfu_zfs_scan_chunk` with its return code, which is 0 on every path. -/
def zfsScanChunk (env : Platform) (z : LfuZfs) (cx : LfuCtx) (idx : Nat)
    : LfuCtx × List Line × Option (Int × Bool) :=
  let (cx, lines, done) := lfuZfsScanChunk env z cx idx
  (cx, lines, done.map fun done => (0, done))

/-- Scanning the chunk to completion visits these objects and returns this code and `*done`.
-/
structure ObjectScan (z : LfuZfs) (idx : Nat) (visited : List (UInt64 × ZfsObject)) (rc : Int)
    (done : Bool)
    : Prop where
  visits
    : ∀ (env : Platform) (cx : LfuCtx),
        let scanned := zfsScanChunk env z cx idx
        let entries :=
          visitEntries env cx (visited.map fun entry => zfsVisit env cx entry.1 entry.2)
        scanned.1 = entries.1 ∧ scanned.2.1 = entries.2
        ∧ (scanned.1.stop = false → scanned.2.2 = some (rc, done))

/-- The position of the lookup that ended the chunk: the last object visited, or the one the
chunk began with.
-/
def lastPosition (idx : Nat) (visited : List (UInt64 × ZfsObject)) : UInt64 :=
  (chunkCursor idx :: visited.map (·.1)).getLast (List.cons_ne_nil _ _)

/-- An allocated object of the chunk. -/
structure ObjectSet.InChunk (os : ObjectSet) (idx : Nat) (id : UInt64) (obj : ZfsObject)
    : Prop where
  allocated : os.objects id = some obj
  nonzero : id ≠ 0
  lower : idx * 65536 ≤ id.toNat
  upper : id.toNat < (idx + 1) * 65536

/-- What a caller may rely on: exactly the objects of the chunk, each once, `*done` only
where nothing is left, and a failure for a lookup that failed.
-/
structure ChunkContract (os : ObjectSet) (idx : Nat) (visited : List (UInt64 × ZfsObject))
    (rc : Int) (done : Bool)
    : Prop where
  exact : ∀ id obj, (id, obj) ∈ visited ↔ os.InChunk idx id obj
  once : (visited.map (·.1)).Pairwise (· < ·)
  last : done = true → ∀ id : UInt64, (idx + 1) * 65536 ≤ id.toNat → os.objects id = none
  errors : ∀ err, os.readError (lastPosition idx visited) = some err → rc ≠ 0

-----------------------------------------------------------------------------------------
-- The walk
-----------------------------------------------------------------------------------------

/-- The walk from a position up to the end of a chunk: the objects visited, and `*done`. -/
inductive Walk (os : ObjectSet) (endId : UInt64)
    : UInt64 → List (UInt64 × ZfsObject) → Bool → Prop
  | failed {position err} (error : os.readError position = some err)
    : Walk os endId position [] true
  | ended {position} (fine : os.readError position = none)
    (none_ : ∀ id, position < id → os.objects id = none)
    : Walk os endId position [] true
  | left {position id obj} (fine : os.readError position = none)
    (next : os.Next position id obj) (beyond : endId ≤ id)
    : Walk os endId position [] false
  | visit {position id obj visited done} (fine : os.readError position = none)
    (next : os.Next position id obj) (within : id < endId)
    (rest : Walk os endId id visited done)
    : Walk os endId position ((id, obj) :: visited) done

theorem ObjectSet.next_or_end (os : ObjectSet) (position : UInt64)
    : (∀ id, position < id → os.objects id = none) ∨ ∃ id obj, os.Next position id obj := by
  by_cases more : ∃ n : Nat, ∃ id : UInt64, id.toNat = n ∧ position < id ∧ os.objects id ≠ none
  · classical
    obtain ⟨id, number, above, some_⟩ := Nat.find_spec more
    obtain ⟨obj, allocated⟩ := Option.ne_none_iff_exists'.mp some_
    refine .inr ⟨id, obj, above, allocated, fun other above under => ?_⟩
    by_contra taken
    refine Nat.find_min more ?_ ⟨other, rfl, above, taken⟩
    rw [← number]
    exact UInt64.lt_iff_toNat_lt.mp under
  · refine .inl fun id above => ?_
    by_contra taken
    exact more ⟨_, id, rfl, above, taken⟩

/-- The chunk function takes the walk. -/
theorem Enumerates.walk {z : LfuZfs} {os : ObjectSet} (enumerates : Enumerates z os)
    (endId position : UInt64)
    : ∃ visited done,
        splitObjects endId (z.nextObjects position) = (visited, some done)
        ∧ Walk os endId position visited done := by
  -- on the numbers left above the position
  induction left : 2 ^ 64 - position.toNat using Nat.strong_induction_on
    generalizing position with
  | h left ih =>
      cases error : os.readError position with
      | some err =>
          obtain ⟨rest, call⟩ := enumerates.failed position err error
          exact ⟨[], true, by rw [call]; rfl, .failed error⟩
      | none =>
          rcases os.next_or_end position with none_ | ⟨id, obj, next⟩
          · obtain ⟨rest, call⟩ := enumerates.ended position error none_
            exact ⟨[], true, by rw [call]; rfl, .ended error none_⟩
          · have call := enumerates.next position id obj error next
            rw [call, splitObjects]
            by_cases beyond : id ≥ endId
            · rw [if_pos beyond]
              exact ⟨[], false, rfl, .left error next beyond⟩
            · have above := UInt64.lt_iff_toNat_lt.mp next.above
              have bound := id.toNat_lt
              obtain ⟨visited, done, same, walk⟩ := ih _ (by omega) id rfl
              rw [if_neg beyond, same]
              exact ⟨_, done, rfl, .visit error next (UInt64.not_le.mp beyond) walk⟩

namespace Walk

variable {os : ObjectSet} {endId position : UInt64} {visited : List (UInt64 × ZfsObject)}
  {done : Bool}

/-- Only allocated objects between the position and the end are visited. -/
theorem sound (walk : Walk os endId position visited done)
    : ∀ id obj, (id, obj) ∈ visited → position < id ∧ id < endId ∧ os.objects id = some obj := by
  intro other obj member
  induction walk with
  | failed | ended | left => cases member
  | visit _ next within _ ih =>
      rcases List.mem_cons.mp member with same | later
      · cases same
        exact ⟨next.above, within, next.allocated⟩
      · obtain ⟨above, below, allocated⟩ := ih later
        exact ⟨UInt64.lt_trans next.above above, below, allocated⟩

theorem ascending (walk : Walk os endId position visited done)
    : (visited.map (·.1)).Pairwise (· < ·) := by
  induction walk with
  | failed | ended | left => exact .nil
  | visit _ _ _ rest ih =>
      refine List.pairwise_cons.mpr ⟨fun id member => ?_, ih⟩
      obtain ⟨⟨id, obj⟩, found, rfl⟩ := List.mem_map.mp member
      exact (rest.sound id obj found).1

/-- Every lookup but the last one found an object. -/
theorem found (walk : Walk os endId position visited done)
    (fine : os.readError
      ((position :: visited.map (·.1)).getLast (List.cons_ne_nil _ _)) = none)
    : ∀ at_ ∈ position :: visited.map (·.1), os.readError at_ = none := by
  induction walk with
  | failed | ended | left =>
      intro at_ member
      rwa [List.mem_singleton.mp member]
  | visit here _ _ _ ih =>
      rw [List.map_cons, List.getLast_cons (List.cons_ne_nil _ _)] at fine
      exact List.forall_mem_cons.mpr ⟨here, ih fine⟩

/-- A walk without a read error visits everything up to the end, and reports the end of the
object set only there.
-/
theorem complete (walk : Walk os endId position visited done)
    (fine : ∀ at_ ∈ position :: visited.map (·.1), os.readError at_ = none)
    : (∀ id obj, position < id → id < endId → os.objects id = some obj → (id, obj) ∈ visited)
      ∧ (done = true → ∀ id, position < id → endId ≤ id → os.objects id = none) := by
  induction walk with
  | failed error =>
      rw [fine _ List.mem_cons_self] at error
      cases error
  | ended _ none_ =>
      refine ⟨fun id obj above _ allocated => ?_, fun _ id above _ => none_ id above⟩
      rw [none_ id above] at allocated
      cases allocated
  | left _ next beyond =>
      refine ⟨fun id obj above below allocated => ?_, nofun⟩
      have unallocated := next.least id above (UInt64.lt_of_lt_of_le below beyond)
      rw [unallocated] at allocated
      cases allocated
  | @visit position found obj _ _ _ next within rest ih =>
      obtain ⟨all, end_⟩ := ih fun at_ member => fine at_ (List.mem_cons_of_mem _ member)
      refine ⟨fun id other above below allocated => ?_, fun done id above beyond => ?_⟩
      · -- below the object found there is none, and above it the rest of the walk
        by_cases under : id < found
        · rw [next.least id above under] at allocated
          cases allocated
        by_cases same : id = found
        · subst same
          rw [next.allocated] at allocated
          cases allocated
          exact List.mem_cons_self
        have later := UInt64.lt_of_le_of_ne (UInt64.not_lt.mp under) (Ne.symm same)
        exact List.mem_cons_of_mem _ (all id other later below allocated)
      · exact end_ done id (UInt64.lt_of_lt_of_le within beyond) beyond

end Walk

theorem chunkStart_toNat {idx : Nat} (fits : (idx + 1) * 65536 < 2 ^ 64)
    : (chunkStart idx).toNat = idx * 65536
      ∧ (chunkStart idx + lfuChunk).toNat = (idx + 1) * 65536 := by
  have small : idx < 2 ^ 64 := by omega
  have index : (UInt64.ofNat idx).toNat = idx := UInt64.toNat_ofNat_of_lt' small
  have width : lfuChunk.toNat = 65536 := rfl
  have start : (chunkStart idx).toNat = idx * 65536 := by
    rw [chunkStart, UInt64.toNat_mul, index, width]
    omega
  refine ⟨start, ?_⟩
  rw [UInt64.toNat_add, start, width]
  omega

/-- Above the position before a chunk means in it or beyond, and not number 0. -/
theorem chunkCursor_lt_iff {idx : Nat} (fits : (idx + 1) * 65536 < 2 ^ 64) (id : UInt64)
    : chunkCursor idx < id ↔ id ≠ 0 ∧ idx * 65536 ≤ id.toNat := by
  obtain ⟨start, _⟩ := chunkStart_toNat fits
  rw [UInt64.lt_iff_toNat_lt, ne_eq, ← UInt64.toNat_inj]
  unfold chunkCursor
  split
  · rename_i nonzero
    have nonzero : (chunkStart idx).toNat ≠ 0 := fun zero =>
      (bne_iff_ne.mp nonzero) (UInt64.toNat_inj.mp zero)
    have least : (1 : UInt64) ≤ chunkStart idx := by
      rw [UInt64.le_iff_toNat_le]
      exact Nat.pos_of_ne_zero nonzero
    rw [UInt64.toNat_sub_of_le _ _ least, start]
    simp only [UInt64.toNat_one, UInt64.toNat_zero]
    omega
  · rename_i zero
    have zero : chunkStart idx = 0 := by simpa using zero
    rw [zero] at start
    simp only [UInt64.toNat_zero] at start ⊢
    omega

theorem inChunk_iff {os : ObjectSet} {idx : Nat} (fits : (idx + 1) * 65536 < 2 ^ 64)
    {id : UInt64} {obj : ZfsObject}
    : os.InChunk idx id obj
      ↔ chunkCursor idx < id ∧ id < chunkStart idx + lfuChunk ∧ os.objects id = some obj := by
  obtain ⟨_, stop⟩ := chunkStart_toNat fits
  rw [chunkCursor_lt_iff fits, UInt64.lt_iff_toNat_lt, stop]
  exact ⟨fun mine => ⟨⟨mine.nonzero, mine.lower⟩, mine.upper, mine.allocated⟩,
    fun ⟨⟨nonzero, lower⟩, upper, allocated⟩ => ⟨allocated, nonzero, lower, upper⟩⟩

-----------------------------------------------------------------------------------------
-- Every chunk
-----------------------------------------------------------------------------------------

theorem Walk.contract_iff {os : ObjectSet} {idx : Nat} (fits : (idx + 1) * 65536 < 2 ^ 64)
    {visited : List (UInt64 × ZfsObject)} {done : Bool}
    (walk : Walk os (chunkStart idx + lfuChunk) (chunkCursor idx) visited done)
    : ChunkContract os idx visited 0 done
      ↔ os.readError (chunkCursor idx) = none
        ∧ ∀ id obj, os.InChunk idx id obj → os.readError id = none := by
  constructor
  · intro contract
    have last : os.readError (lastPosition idx visited) = none := by
      by_contra error
      obtain ⟨err, error⟩ := Option.ne_none_iff_exists'.mp error
      exact contract.errors err error rfl
    have fine := walk.found last
    refine ⟨fine _ List.mem_cons_self, fun id obj mine => fine id ?_⟩
    exact List.mem_cons_of_mem _ (List.mem_map.mpr ⟨_, (contract.exact id obj).mpr mine, rfl⟩)
  · rintro ⟨here, everywhere⟩
    have sound (id : UInt64) (obj : ZfsObject) (member : (id, obj) ∈ visited)
        : os.InChunk idx id obj :=
      (inChunk_iff fits).mpr (walk.sound id obj member)
    have fine : ∀ at_ ∈ chunkCursor idx :: visited.map (·.1), os.readError at_ = none := by
      refine List.forall_mem_cons.mpr ⟨here, fun at_ member => ?_⟩
      obtain ⟨⟨id, obj⟩, found, rfl⟩ := List.mem_map.mp member
      exact everywhere id obj (sound id obj found)
    obtain ⟨all, end_⟩ := walk.complete fine
    refine ⟨fun id obj => ⟨sound id obj, fun mine => ?_⟩, walk.ascending,
      fun done id beyond => ?_, fun err error => ?_⟩
    · obtain ⟨above, below, allocated⟩ := (inChunk_iff fits).mp mine
      exact all id obj above below allocated
    · obtain ⟨_, stop⟩ := chunkStart_toNat fits
      have lower : idx * 65536 ≤ id.toNat :=
        Nat.le_trans (Nat.mul_le_mul_right _ (Nat.le_succ idx)) beyond
      refine end_ done id ((chunkCursor_lt_iff fits id).mpr ⟨fun zero => ?_, lower⟩) ?_
      · have none_ : id.toNat = 0 := congrArg UInt64.toNat zero
        omega
      · exact UInt64.le_iff_toNat_le.mpr (Nat.le_trans (Nat.le_of_eq stop) beyond)
    · have none_ : os.readError (lastPosition idx visited) = none :=
        fine _ (List.getLast_mem _)
      rw [none_] at error
      cases error

/-- The objects a chunk visits. -/
def LfuZfs.visited (z : LfuZfs) (idx : Nat) : List (UInt64 × ZfsObject) := (z.chunk idx).1

/-- Whether a chunk reports the end. -/
def LfuZfs.reportsDone (z : LfuZfs) (idx : Nat) : Bool := (z.chunk idx).2 == some true

theorem objectScan_of_chunk {z : LfuZfs} {idx : Nat} {visited : List (UInt64 × ZfsObject)}
    {done : Bool} (chunk : z.chunk idx = (visited, some done))
    : ObjectScan z idx visited 0 done := by
  refine ⟨fun env cx => ?_⟩
  have scanned := lfuZfsScanChunk_visits env z cx idx
  simp only [zfsBackend, chunk] at scanned
  unfold zfsScanChunk
  rw [scanned]
  exact ⟨rfl, rfl, fun going => by rw [if_neg (Bool.eq_false_iff.mp going)]; rfl⟩

/-- A chunk keeps its contract if and only if no lookup it needs meets a read error: neither
the one before the chunk nor the one after any object of it.
-/
theorem zfs_chunk_contract_iff (z : LfuZfs) (os : ObjectSet) (enumerates : Enumerates z os)
    (idx : Nat) (fits : (idx + 1) * 65536 < 2 ^ 64)
    : ObjectScan z idx (z.visited idx) 0 (z.reportsDone idx)
      ∧ (ChunkContract os idx (z.visited idx) 0 (z.reportsDone idx)
          ↔ os.readError (chunkCursor idx) = none
            ∧ ∀ id obj, os.InChunk idx id obj → os.readError id = none) := by
  obtain ⟨visited, done, same, walk⟩ :=
    enumerates.walk (chunkStart idx + lfuChunk) (chunkCursor idx)
  have chunk : z.chunk idx = (visited, some done) := same
  have reported : z.reportsDone idx = done := by
    rw [LfuZfs.reportsDone, chunk]
    cases done <;> rfl
  rw [LfuZfs.visited, chunk, reported]
  exact ⟨objectScan_of_chunk chunk, walk.contract_iff fits⟩

/-- The error a lookup from the very beginning meets. -/
def blockedBy (error : Option Int) (position : UInt64) : Option Int :=
  if position = 0 then error else none

/-- One object, number 5, and perhaps an error on the way to it. -/
def oneObject (error : Option Int) (notEnd : ∀ err, error = some err → err ≠ esrch)
    : ObjectSet where
  objects id := if id = 5 then some {} else none
  readError := blockedBy error
  notEnd position err failed := by
    unfold blockedBy at failed
    split at failed
    · exact notEnd err failed
    · cases failed

def oneObjectZfs (error : Option Int) : LfuZfs where
  nextObjects position :=
    match blockedBy error position with
    | some err => [.failed err]
    | none => if position < 5 then [.object 5 {}, .failed esrch] else [.failed esrch]

theorem oneObject_enumerates (error : Option Int)
    (notEnd : ∀ err, error = some err → err ≠ esrch)
    : Enumerates (oneObjectZfs error) (oneObject error notEnd) where
  failed position err (failed : blockedBy error position = some err) :=
    ⟨[], by simp only [oneObjectZfs, failed]⟩
  ended position (fine : blockedBy error position = none) none_ := by
    have above : ¬ position < 5 := fun below => nomatch none_ 5 below
    exact ⟨[], by simp only [oneObjectZfs, fine, if_neg above]⟩
  next position id obj (fine : blockedBy error position = none) next := by
    have allocated : (if id = 5 then some {} else none) = some obj := next.allocated
    split at allocated
    · rename_i five
      subst five
      cases allocated
      simp only [oneObjectZfs, fine, if_pos next.above]
      rfl
    · cases allocated

/-- Without an error the object is visited and the end reported. -/
theorem zfs_chunk_contract_oneObject
    : let z := oneObjectZfs none
      ObjectScan z 0 (z.visited 0) 0 (z.reportsDone 0)
        ∧ ChunkContract (oneObject none nofun) 0 (z.visited 0) 0 (z.reportsDone 0) := by
  intro z
  obtain ⟨scan, contract⟩ :=
    zfs_chunk_contract_iff z _ (oneObject_enumerates none nofun) 0 (by decide)
  exact ⟨scan, contract.mpr ⟨rfl, fun id _ _ => ite_self none⟩⟩

/-- An `EIO` before the object ends the scan as if there were none: the call returns 0 with
`*done` set and has visited nothing.
-/
theorem read_error_reported_as_end
    : ∃ notEnd,
        let os := oneObject (some 5) notEnd
        Enumerates (oneObjectZfs (some 5)) os
        ∧ ObjectScan (oneObjectZfs (some 5)) 0 [] 0 true
        ∧ os.readError (chunkCursor 0) = some 5
        ∧ os.InChunk 0 5 {} := by
  have notEnd : ∀ err : Int, some (5 : Int) = some err → err ≠ esrch := by
    intro err same
    cases same
    decide
  exact ⟨notEnd, oneObject_enumerates (some 5) notEnd, objectScan_of_chunk rfl, rfl,
    ⟨rfl, by decide, by decide, by decide⟩⟩

end LfuScan.Device
